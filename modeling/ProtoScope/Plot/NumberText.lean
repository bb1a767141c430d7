/-
How the data files write numbers, flags and texts, and how they read them.

What the C++ library does between floating-point numbers and text is a parameter, with what
it promises: seventeen digits give a double back, nine digits a float.
-/
import ProtoScope.Data.Model
import ProtoScope.Library.Decimal
import ProtoScope.Library.Hex
import ProtoScope.Library.Lines

namespace ProtoScope.Plot

open ProtoScope.Data (Text text)
open ProtoScope.Library

/-- The bytes numbers are written with, those of `inf` and `nan(ind)` included. -/
def NumberByte (byte : UInt8) : Prop := byte ∈ text "0123456789+-.()adefin"

instance (byte : UInt8) : Decidable (NumberByte byte) :=
  inferInstanceAs (Decidable (byte ∈ _))

/-- `1.5F`, `0.5F` and `8.0F` -/
def kDefaultChannelLineWidth : Float32 := Float32.ofBits 0x3FC00000

def kMinChannelLineWidth : Float32 := Float32.ofBits 0x3F000000

def kMaxChannelLineWidth : Float32 := Float32.ofBits 0x41000000

/-- Floating-point conversions and texts. -/
structure Numbers where
  /-- `float` to `double` -/
  toDouble : Float32 → Float
  /-- `double` to `float` -/
  toFloat : Float → Float32
  /-- `out << std::setprecision(digits) << value` -/
  print : ℕ → Float → Text
  /-- `std::stod` with the number of characters it has consumed, or that it throws. -/
  stod : Text → Option (Float × ℕ)
  /-- The doubles, subnormal ones, whose text `std::stod` reports as out of range. -/
  outOfRange : Float → Bool
  isFinite_default : (toDouble kDefaultChannelLineWidth).isFinite = true
  print_ne_nil : ∀ digits x, print digits x ≠ []
  numberByte_print : ∀ digits x, ∀ byte ∈ print digits x, NumberByte byte
  /-- Seventeen digits are enough for a double. -/
  stod_print : ∀ x, x.isFinite = true → outOfRange x = false →
    stod (print 17 x) = some (x, (print 17 x).length)
  stod_outOfRange : ∀ x, outOfRange x = true → stod (print 17 x) = none
  /-- Nine digits are enough for a float; 0.5 and 8 they write exactly. -/
  stod_printFloat : ∀ x, (toDouble x).isFinite = true →
    ∃ y, stod (print 9 (toDouble x)) = some (y, (print 9 (toDouble x)).length) ∧
      y.isFinite = true ∧ toFloat y = x ∧
      y.lt (toDouble kMinChannelLineWidth) = (toDouble x).lt (toDouble kMinChannelLineWidth) ∧
      (toDouble kMaxChannelLineWidth).lt y = (toDouble kMaxChannelLineWidth).lt (toDouble x)
  /-- `inf` and `nan` are read as what they are. -/
  stod_notFinite : ∀ digits x y n, x.isFinite = false → stod (print digits x) = some (y, n) →
    y.isFinite = false

/-! ### Reading -/

def parseUnsigned (value : Text) : Option UInt64 :=
  (Decimal.parse (Lines.trim value)).bind fun n =>
    if n < 18446744073709551616 then some (UInt64.ofNat n) else none

def parseDouble (numbers : Numbers) (value : Text) : Option Float :=
  if Lines.trim value = [] then none
  else
    (numbers.stod (Lines.trim value)).bind fun parsed =>
      if parsed.2 = (Lines.trim value).length then some parsed.1 else none

/-- `parseDouble`, and the number is finite. -/
def parseFinite (numbers : Numbers) (value : Text) : Option Float :=
  (parseDouble numbers value).filter Float.isFinite

def parseBool (value : Text) : Option Bool :=
  if Lines.trim value = text "true" ∨ Lines.trim value = text "1" then some true
  else if Lines.trim value = text "false" ∨ Lines.trim value = text "0" then some false
  else none

def decodeStringHex (value : Text) : Option Text := Hex.decode (Lines.trim value)

/-! ### Writing -/

def unsignedText (value : UInt64) : Text := Decimal.render value.toNat

def boolText (value : Bool) : Text := if value then text "true" else text "false"

/-- The digits are `0` to `9` and `a` to `f`. -/
def encodeStringHex (value : Text) : Text := Hex.encode 97 value

/-! ### What was written is read -/

/-- A text the readers do not trim. -/
def Plain (value : Text) : Prop := ∀ byte ∈ value, Lines.isSpace byte = false

instance (value : Text) : Decidable (Plain value) :=
  inferInstanceAs (Decidable (∀ byte ∈ value, _))

theorem Plain.trim_eq {value : Text} (h : Plain value) : Lines.trim value = value :=
  Lines.trim_eq_self (Lines.trimmed_of_forall h)

theorem plain_render (n : ℕ) : Plain (Decimal.render n) := by
  intro byte hbyte
  obtain ⟨hlow, hhigh⟩ := Decimal.isDigit_of_mem_render hbyte
  rw [UInt8.le_iff_toNat_le] at hlow hhigh
  have hlow' : 48 ≤ byte.toNat := hlow
  unfold Lines.isSpace
  rw [Bool.or_eq_false_iff, Bool.and_eq_false_iff]
  refine ⟨beq_false_of_ne ?_, .inr (decide_eq_false ?_)⟩
  · rintro rfl
    exact absurd hlow' (by decide)
  · rw [UInt8.le_iff_toNat_le]
    show ¬ byte.toNat ≤ 13
    omega

theorem plain_boolText (value : Bool) : Plain (boolText value) := by
  cases value <;> decide +kernel

theorem plain_print (numbers : Numbers) (digits : ℕ) (x : Float) : Plain (numbers.print digits x) := by
  have hall : ∀ byte ∈ text "0123456789+-.()adefin", Lines.isSpace byte = false := by decide +kernel
  intro byte hbyte
  exact hall byte (numbers.numberByte_print digits x byte hbyte)

theorem plain_hex (value : Text) : Plain (encodeStringHex value) := by
  have hdigit : ∀ n : Fin 256, Hex.IsDigit (UInt8.ofNat n) → Lines.isSpace (UInt8.ofNat n) = false := by
    decide +kernel
  intro byte hbyte
  have hbyte' := hdigit ⟨byte.toNat, byte.toNat_lt⟩
  dsimp only at hbyte'
  rw [UInt8.ofNat_toNat] at hbyte'
  exact hbyte' (Hex.isDigit_of_mem_encode .lower hbyte)

theorem parseUnsigned_unsignedText (value : UInt64) :
    parseUnsigned (unsignedText value) = some value := by
  unfold parseUnsigned unsignedText
  rw [(plain_render _).trim_eq, Decimal.parse_render, Option.bind_some, if_pos value.toNat_lt,
    UInt64.ofNat_toNat]

theorem parseUnsigned_render {n : ℕ} (h : n < 18446744073709551616) :
    parseUnsigned (Decimal.render n) = some (UInt64.ofNat n) := by
  have hread := parseUnsigned_unsignedText (UInt64.ofNat n)
  unfold unsignedText at hread
  rwa [UInt64.toNat_ofNat_of_lt' h] at hread

theorem parseBool_boolText (value : Bool) : parseBool (boolText value) = some value := by
  cases value <;> decide

theorem decodeStringHex_encodeStringHex (value : Text) :
    decodeStringHex (encodeStringHex value) = some value := by
  unfold decodeStringHex
  rw [(plain_hex value).trim_eq]
  exact Hex.decode_encode .lower value

theorem parseDouble_eq {numbers : Numbers} {value : Text} (hplain : Plain value) (hne : value ≠ []) :
    parseDouble numbers value = (numbers.stod value).bind fun parsed =>
      if parsed.2 = value.length then some parsed.1 else none := by
  unfold parseDouble
  rw [hplain.trim_eq, if_neg hne]

/-- The numbers seventeen digits give back. -/
def Numbers.Exact (numbers : Numbers) (x : Float) : Prop :=
  x.isFinite = true ∧ numbers.outOfRange x = false

/-- **A double is read back from its text, or refused.** -/
theorem parseFinite_print (numbers : Numbers) (x : Float) :
    (numbers.Exact x → parseFinite numbers (numbers.print 17 x) = some x) ∧
      (¬ numbers.Exact x → parseFinite numbers (numbers.print 17 x) = none) := by
  unfold parseFinite
  rw [parseDouble_eq (plain_print numbers 17 x) (numbers.print_ne_nil 17 x)]
  constructor
  · rintro ⟨hfinite, hrange⟩
    rw [numbers.stod_print x hfinite hrange, Option.bind_some]
    simp [hfinite]
  · intro hexact
    by_cases hrange : numbers.outOfRange x = true
    · rw [numbers.stod_outOfRange x hrange]
      rfl
    · have hfinite : x.isFinite = false := by
        rw [← Bool.not_eq_true]
        exact fun hfinite => hexact ⟨hfinite, Bool.eq_false_iff.mpr hrange⟩
      cases hstod : numbers.stod (numbers.print 17 x) with
      | none => rfl
      | some result =>
        obtain ⟨y, n⟩ := result
        have hy := numbers.stod_notFinite 17 x y n hfinite hstod
        rw [Option.bind_some]
        split
        · simp [hy]
        · rfl

end ProtoScope.Plot
