/-
Bytes as pairs of hexadecimal digits.  The digits above nine are written from a given first
letter on, and read in either case.
-/
import Mathlib.Data.UInt
import Mathlib.Tactic.Common
import Mathlib.Tactic.IntervalCases

namespace ProtoScope.Library.Hex

/-- `'a'` or `'A'` -/
inductive IsLetter : UInt8 → Prop
  | upper : IsLetter 65
  | lower : IsLetter 97

def digit (letter value : UInt8) : UInt8 :=
  if value < 10 then 48 + value else letter + (value - 10)

def encode (letter : UInt8) : List UInt8 → List UInt8
  | [] => []
  | byte :: bytes =>
    digit letter ((byte >>> 4) &&& 15) :: digit letter (byte &&& 15) :: encode letter bytes

def nibble (ch : UInt8) : Option UInt8 :=
  if 48 ≤ ch ∧ ch ≤ 57 then some (ch - 48)
  else if 97 ≤ ch ∧ ch ≤ 102 then some (10 + (ch - 97))
  else if 65 ≤ ch ∧ ch ≤ 70 then some (10 + (ch - 65))
  else none

/-- `none` for a digit without its other half, and for what is no digit. -/
def decode : List UInt8 → Option (List UInt8)
  | [] => some []
  | [_] => none
  | high :: low :: rest => do
    let high ← nibble high
    let low ← nibble low
    let bytes ← decode rest
    return ((high <<< 4) ||| low) :: bytes

def IsDigit (ch : UInt8) : Prop :=
  (48 ≤ ch ∧ ch ≤ 57) ∨ (97 ≤ ch ∧ ch ≤ 102) ∨ (65 ≤ ch ∧ ch ≤ 70)

instance (ch : UInt8) : Decidable (IsDigit ch) :=
  inferInstanceAs (Decidable (_ ∨ _))

theorem and_lt (byte : UInt8) : (byte &&& 15).toNat < 16 := by
  rw [UInt8.toNat_and]
  exact Nat.lt_of_le_of_lt Nat.and_le_right (by decide)

theorem nibble_digit {letter value : UInt8} (hletter : IsLetter letter)
    (h : value.toNat < 16) : nibble (digit letter value) = some value := by
  have hvalue : value = UInt8.ofNat value.toNat := UInt8.ofNat_toNat.symm
  rw [hvalue]
  cases hletter <;> interval_cases value.toNat <;> rfl

theorem isDigit_digit {letter value : UInt8} (hletter : IsLetter letter)
    (h : value.toNat < 16) : IsDigit (digit letter value) := by
  have hvalue : value = UInt8.ofNat value.toNat := UInt8.ofNat_toNat.symm
  rw [hvalue]
  cases hletter <;> interval_cases value.toNat <;> decide

theorem join_nibbles (byte : UInt8) :
    (((byte >>> 4) &&& 15) <<< 4) ||| (byte &&& 15) = byte := by
  have hall : ∀ n : Fin 256, (((UInt8.ofNat n >>> 4) &&& 15) <<< 4) ||| (UInt8.ofNat n &&& 15) =
      UInt8.ofNat n := by
    decide +kernel
  have hbyte := hall ⟨byte.toNat, byte.toNat_lt⟩
  dsimp only at hbyte
  rwa [UInt8.ofNat_toNat] at hbyte

/-- **Bytes are read back from their digits.** -/
theorem decode_encode {letter : UInt8} (hletter : IsLetter letter) (bytes : List UInt8) :
    decode (encode letter bytes) = some bytes := by
  induction bytes with
  | nil => rfl
  | cons byte bytes ih =>
    simp only [encode, decode, nibble_digit hletter (and_lt _), ih, Option.bind_eq_bind,
      Option.bind_some, join_nibbles]
    rfl

theorem isDigit_of_mem_encode {letter : UInt8} (hletter : IsLetter letter) {bytes : List UInt8}
    {ch : UInt8} (h : ch ∈ encode letter bytes) : IsDigit ch := by
  induction bytes with
  | nil => exact nomatch h
  | cons byte bytes ih =>
    simp only [encode, List.mem_cons] at h
    obtain rfl | rfl | h := h
    · exact isDigit_digit hletter (and_lt _)
    · exact isDigit_digit hletter (and_lt _)
    · exact ih h

end ProtoScope.Library.Hex
