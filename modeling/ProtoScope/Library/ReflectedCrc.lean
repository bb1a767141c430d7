/-
A reflected checksum register.

Two facts are needed of a shift register to take many bits at a time.

  * It is linear: the shifts of a sum are the sum of the shifts.
  * A register whose lowest bits are clear only moves down.

So many shifts are those of the lowest bits, which a table can hold, and the rest moved down.
-/
import Mathlib.Algebra.GroupWithZero.Nat
import Mathlib.Logic.Function.Iterate
import Mathlib.Tactic.Common

namespace ProtoScope.Library.ReflectedCrc

variable {w : ℕ} {polynomial : BitVec w}

/-- One shift of the register, the lowest bit first. -/
def shift (polynomial x : BitVec w) : BitVec w :=
  if x.getLsbD 0 then (x >>> 1) ^^^ polynomial else x >>> 1

theorem shift_xor (x y : BitVec w) :
    shift polynomial (x ^^^ y) = shift polynomial x ^^^ shift polynomial y := by
  have hcancel : ∀ a b : BitVec w, (a ^^^ polynomial) ^^^ (b ^^^ polynomial) = a ^^^ b := by
    intro a b
    rw [BitVec.xor_assoc, BitVec.xor_comm b, ← BitVec.xor_assoc polynomial, BitVec.xor_self,
      BitVec.zero_xor]
  unfold shift
  rw [BitVec.getLsbD_xor, BitVec.ushiftRight_xor_distrib]
  cases x.getLsbD 0 <;> cases y.getLsbD 0
  · rfl
  · exact BitVec.xor_assoc _ _ _
  · simp only [Bool.xor_false, if_true, Bool.false_eq_true, if_false]
    rw [BitVec.xor_assoc, BitVec.xor_comm (y >>> 1), BitVec.xor_assoc]
  · exact (hcancel _ _).symm

theorem shifts_xor (count : ℕ) (x y : BitVec w) :
    (shift polynomial)^[count] (x ^^^ y) =
      (shift polynomial)^[count] x ^^^ (shift polynomial)^[count] y := by
  induction count generalizing x y with
  | zero => rfl
  | succ count ih => rw [Function.iterate_succ_apply, shift_xor, ih]; rfl

/-- Where no bit is shifted out the register only moves down. -/
theorem shifts_clear (count : ℕ) {x : BitVec w} (h : ∀ i < count, x.getLsbD i = false) :
    (shift polynomial)^[count] x = x >>> count := by
  induction count with
  | zero => exact (BitVec.ushiftRight_zero x).symm
  | succ count ih =>
    have hlowest : (x >>> count).getLsbD 0 = false := by
      rw [BitVec.getLsbD_ushiftRight]
      exact h count (Nat.lt_succ_self count)
    rw [Function.iterate_succ_apply', ih fun i hi => h i (Nat.lt_succ_of_lt hi), shift,
      if_neg (by rw [hlowest]; exact Bool.false_ne_true), BitVec.shiftRight_add]

/-- The lowest bits of a register. -/
def low (count : ℕ) (x : BitVec w) : BitVec w := x &&& BitVec.ofNat w (2 ^ count - 1)

theorem getLsbD_low (count : ℕ) (x : BitVec w) (i : ℕ) :
    (low count x).getLsbD i = (x.getLsbD i && decide (i < count)) := by
  unfold low
  rw [BitVec.getLsbD_and, BitVec.getLsbD_ofNat, Nat.testBit_two_pow_sub_one]
  by_cases hi : i < w
  · rw [decide_eq_true hi, Bool.true_and]
  · rw [BitVec.getLsbD_of_ge x i (Nat.le_of_not_lt hi), Bool.false_and, Bool.false_and]

/-- **Many shifts are those of the lowest bits and the rest moved down.** -/
theorem shifts_eq_low (count : ℕ) (x : BitVec w) :
    (shift polynomial)^[count] x = (shift polynomial)^[count] (low count x) ^^^ (x >>> count) := by
  have hsplit : x = low count x ^^^ (low count x ^^^ x) := by
    rw [← BitVec.xor_assoc, BitVec.xor_self, BitVec.zero_xor]
  have hclear : ∀ i < count, (low count x ^^^ x).getLsbD i = false := by
    intro i hi
    rw [BitVec.getLsbD_xor, getLsbD_low, decide_eq_true hi, Bool.and_true, Bool.xor_self]
  have hrest : (low count x ^^^ x) >>> count = x >>> count := by
    apply BitVec.eq_of_getLsbD_eq
    intro i _
    rw [BitVec.getLsbD_ushiftRight, BitVec.getLsbD_ushiftRight, BitVec.getLsbD_xor, getLsbD_low,
      decide_eq_false (by omega), Bool.and_false, Bool.false_xor]
  calc (shift polynomial)^[count] x
      = (shift polynomial)^[count] (low count x ^^^ (low count x ^^^ x)) := by rw [← hsplit]
    _ = (shift polynomial)^[count] (low count x) ^^^ (x >>> count) := by
      rw [shifts_xor, shifts_clear count hclear, hrest]

/-- **A byte at a time**: what is added to the register may have no bits above those shifted out. -/
theorem shifts_add (count : ℕ) (x : BitVec w) {y : BitVec w} (hy : y >>> count = 0) :
    (shift polynomial)^[count] (x ^^^ y) =
      (shift polynomial)^[count] (low count (x ^^^ y)) ^^^ (x >>> count) := by
  rw [shifts_eq_low, BitVec.ushiftRight_xor_distrib, hy]
  exact congrArg _ (BitVec.xor_zero)

end ProtoScope.Library.ReflectedCrc
