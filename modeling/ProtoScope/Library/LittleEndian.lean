/-
Numbers as bytes, the lowest byte first.
-/
import Mathlib.Data.UInt
import Mathlib.Tactic.Ring

namespace ProtoScope.Library.LittleEndian

/-- The lowest `width` bytes of a number. -/
def digits : ℕ → ℕ → List UInt8
  | 0, _ => []
  | width + 1, value => UInt8.ofNat value :: digits width (value / 256)

/-- The number some bytes stand for. -/
def number : List UInt8 → ℕ
  | [] => 0
  | byte :: bytes => byte.toNat + 256 * number bytes

@[simp] theorem digits_length (width value : ℕ) : (digits width value).length = width := by
  induction width generalizing value with
  | zero => rfl
  | succ width ih => simp [digits, ih]

theorem number_digits (width value : ℕ) : number (digits width value) = value % 256 ^ width := by
  induction width generalizing value with
  | zero => simp [digits, number, Nat.mod_one]
  | succ width ih =>
    have hbyte : (UInt8.ofNat value).toNat = value % 256 := UInt8.toNat_ofNat'
    rw [digits, number, ih, hbyte, Nat.pow_succ', Nat.mod_mul]

/-- A number below `256 ^ width` is read back from its bytes. -/
theorem number_digits_of_lt {width value : ℕ} (h : value < 256 ^ width) :
    number (digits width value) = value := by
  rw [number_digits, Nat.mod_eq_of_lt h]

/-! ### Reading with shifts -/

/-- Putting one more byte above those already read, as `result |= byte << (8 * i)`. -/
theorem or_shiftLeft {result : UInt64} {i : ℕ} (hi : i < 8) (hresult : result.toNat < 256 ^ i)
    (byte : UInt8) :
    (result ||| (byte.toUInt64 <<< UInt64.ofNat (8 * i))).toNat =
      result.toNat + 256 ^ i * byte.toNat := by
  have hpow : 256 ^ i = 2 ^ (8 * i) := by
    rw [Nat.pow_mul]
  have hbyte : byte.toNat < 2 ^ 8 := byte.toNat_lt
  have hshift : (UInt64.ofNat (8 * i)).toNat % 64 = 8 * i := by
    have : (UInt64.ofNat (8 * i)).toNat = 8 * i % 2 ^ 64 := UInt64.toNat_ofNat'
    omega
  have hfits : byte.toNat * 2 ^ (8 * i) < 2 ^ 64 := by
    calc byte.toNat * 2 ^ (8 * i) < 2 ^ 8 * 2 ^ (8 * i) :=
          Nat.mul_lt_mul_of_pos_right hbyte (Nat.two_pow_pos _)
      _ = 2 ^ (8 + 8 * i) := (Nat.pow_add 2 8 (8 * i)).symm
      _ ≤ 2 ^ 64 := Nat.pow_le_pow_right (by decide) (by omega)
  rw [UInt64.toNat_or, UInt64.toNat_shiftLeft, hshift, UInt8.toNat_toUInt64, Nat.shiftLeft_eq,
    Nat.mod_eq_of_lt hfits, Nat.or_comm, ← Nat.shiftLeft_eq,
    ← Nat.shiftLeft_add_eq_or_of_lt (hpow ▸ hresult), Nat.shiftLeft_eq, hpow]
  ring

/-- The byte at place `i`, as the code takes it out. -/
theorem shiftRight_toUInt8 (value : UInt64) {i : ℕ} (hi : i < 8) :
    (value >>> UInt64.ofNat (8 * i)).toUInt8 = UInt8.ofNat (value.toNat / 256 ^ i) := by
  have hshift : (UInt64.ofNat (8 * i)).toNat % 64 = 8 * i := by
    have : (UInt64.ofNat (8 * i)).toNat = 8 * i % 2 ^ 64 := UInt64.toNat_ofNat'
    omega
  have hpow : 256 ^ i = 2 ^ (8 * i) := by
    rw [Nat.pow_mul]
  apply UInt8.toNat.inj
  rw [UInt64.toNat_toUInt8, UInt64.toNat_shiftRight, hshift, UInt8.toNat_ofNat', hpow,
    Nat.shiftRight_eq_div_pow]

end ProtoScope.Library.LittleEndian
