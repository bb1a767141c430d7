/-
Whole numbers as decimal text, one byte a digit.

`render` writes the digits without leading zeros.  `parse` takes text that is all digits,
leading zeros included, and has at least one.
-/
import Mathlib.Data.Nat.Digits.Defs
import Mathlib.Data.UInt
import Mathlib.Tactic.Common

namespace ProtoScope.Library.Decimal

/-- `'0'` -/
def zero : UInt8 := 48

/-- `'9'` -/
def nine : UInt8 := 57

def IsDigit (byte : UInt8) : Prop := zero ≤ byte ∧ byte ≤ nine

instance (byte : UInt8) : Decidable (IsDigit byte) :=
  inferInstanceAs (Decidable (_ ∧ _))

def render (n : ℕ) : List UInt8 :=
  if n = 0 then [zero]
  else (Nat.digits 10 n).reverse.map fun digit => UInt8.ofNat (48 + digit)

/-- Reads on from the digits that make `value`. -/
def parseFrom : ℕ → List UInt8 → Option ℕ
  | value, [] => some value
  | value, byte :: bytes =>
    if IsDigit byte then parseFrom (10 * value + (byte.toNat - 48)) bytes else none

def parse (text : List UInt8) : Option ℕ :=
  if text = [] then none else parseFrom 0 text

theorem isDigit_ofNat {digit : ℕ} (h : digit < 10) : IsDigit (UInt8.ofNat (48 + digit)) := by
  have : (UInt8.ofNat (48 + digit)).toNat = 48 + digit := 
    UInt8.toNat_ofNat_of_lt (by show 48 + digit < 256; omega)
  unfold IsDigit zero nine
  rw [UInt8.le_iff_toNat_le, UInt8.le_iff_toNat_le, this]
  exact ⟨by show 48 ≤ _; omega, by show _ ≤ 57; omega⟩

theorem toNat_ofNat_digit {digit : ℕ} (h : digit < 10) :
    (UInt8.ofNat (48 + digit)).toNat - 48 = digit := by
  have : (UInt8.ofNat (48 + digit)).toNat = 48 + digit := 
    UInt8.toNat_ofNat_of_lt (by show 48 + digit < 256; omega)
  omega

theorem parseFrom_append (value : ℕ) (first second : List UInt8) :
    parseFrom value (first ++ second) =
      (parseFrom value first).bind fun middle => parseFrom middle second := by
  induction first generalizing value with
  | nil => rfl
  | cons byte bytes ih =>
    simp only [List.cons_append, parseFrom]
    split
    · exact ih _
    · rfl

/-- Digits, the lowest first, are read as the number they make. -/
theorem parseFrom_digits (digits : List ℕ) (h : ∀ digit ∈ digits, digit < 10) :
    parseFrom 0 (digits.reverse.map fun digit => UInt8.ofNat (48 + digit)) =
      some (Nat.ofDigits 10 digits) := by
  induction digits with
  | nil => rfl
  | cons digit digits ih =>
    have hdigit : digit < 10 := h digit List.mem_cons_self
    rw [List.reverse_cons, List.map_append, parseFrom_append,
      ih fun other hother => h other (List.mem_cons_of_mem _ hother)]
    show parseFrom _ [_] = _
    simp only [parseFrom, if_pos (isDigit_ofNat hdigit), toNat_ofNat_digit hdigit,
      Nat.ofDigits_cons]
    rw [Nat.add_comm]

theorem render_ne_nil (n : ℕ) : render n ≠ [] := by
  unfold render
  split
  · exact List.cons_ne_nil _ _
  · rename_i hn
    simpa [Nat.digits_eq_nil_iff_eq_zero] using hn

/-- **A number is read back from its digits.** -/
theorem parse_render (n : ℕ) : parse (render n) = some n := by
  unfold parse
  rw [if_neg (render_ne_nil n)]
  unfold render
  split
  · rename_i hn
    rw [hn]
    rfl
  · rw [parseFrom_digits _ fun digit => Nat.digits_lt_base (by decide), Nat.ofDigits_digits]

theorem isDigit_of_mem_render {n : ℕ} {byte : UInt8} (h : byte ∈ render n) : IsDigit byte := by
  unfold render at h
  split at h
  · rw [List.mem_singleton.mp h]
    decide
  · obtain ⟨digit, hdigit, rfl⟩ := List.mem_map.mp h
    exact isDigit_ofNat (Nat.digits_lt_base (by decide) (List.mem_reverse.mp hdigit))

end ProtoScope.Library.Decimal
