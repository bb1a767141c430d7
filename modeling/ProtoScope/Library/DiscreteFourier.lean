/-
The discrete Fourier transform of a list of real numbers.

The transform of real values at `N - j` is the conjugate of that at `j`, since the powers of a root
of unity there are the inverses.  A cosine is half the sum of two rotations that run in opposite
directions; the transform at its frequency meets one of them at rest, which adds up, and the other
one at twice the frequency, which sums to zero.
-/
import Mathlib.RingTheory.RootsOfUnity.Complex
import Mathlib.Analysis.SpecialFunctions.Trigonometric.Basic

namespace ProtoScope.Library

open Complex ComplexConjugate

section

/-- By name, so that the numeral of `turn` is the same term wherever it is compiled. -/
local instance atLeastTwo : Nat.AtLeastTwo 2 := ⟨le_refl 2⟩

/-- Where a rotation stands after `m` of the `N` steps of a turn. -/
noncomputable def turn (N : ℕ) (m : ℤ) : ℂ := exp (2 * Real.pi * I * (m / N))

end

/-- The value at `j` of the discrete Fourier transform. -/
noncomputable def dft (values : List ℝ) (j : ℕ) : ℂ :=
  ∑ n ∈ Finset.range values.length, (values.getD n 0 : ℂ) * turn values.length (-(j * n))

theorem turn_add (N : ℕ) (a b : ℤ) : turn N (a + b) = turn N a * turn N b := by
  unfold turn
  rw [← exp_add]
  push_cast
  ring_nf

theorem turn_zero (N : ℕ) : turn N 0 = 1 := by
  unfold turn
  rw [Int.cast_zero, zero_div, mul_zero, exp_zero]

theorem turn_whole {N : ℕ} (hN : N ≠ 0) (m : ℤ) : turn N (N * m) = 1 := by
  unfold turn
  have hturns : ((N * m : ℤ) : ℂ) / N = m := by
    push_cast
    exact mul_div_cancel_left₀ _ (Nat.cast_ne_zero.mpr hN)
  rw [hturns, mul_comm]
  exact exp_int_mul_two_pi_mul_I m

theorem conj_turn (N : ℕ) (m : ℤ) : conj (turn N m) = turn N (-m) := by
  unfold turn
  rw [← exp_conj]
  simp only [map_mul, map_div₀, conj_I, conj_ofReal, map_ofNat, map_intCast, map_natCast]
  push_cast
  ring_nf

theorem turn_pow (N : ℕ) (m : ℤ) (n : ℕ) : turn N m ^ n = turn N (m * n) := by
  unfold turn
  rw [← exp_nat_mul]
  push_cast
  ring_nf

/-- Only whole turns come back to the beginning. -/
theorem turn_ne_one {N : ℕ} {m : ℕ} (hm : 0 < m) (hlt : m < N) : turn N m ≠ 1 := by
  have hprimitive := isPrimitiveRoot_exp N (by omega)
  have hpow : turn N m = exp (2 * Real.pi * I / N) ^ m := by
    unfold turn
    rw [← exp_nat_mul]
    push_cast
    ring_nf
  rw [hpow]
  exact hprimitive.pow_ne_one_of_pos_of_lt hm.ne' hlt

/-- A rotation that is not at rest sums to zero. -/
theorem sum_turn {N m : ℕ} (hm : 0 < m) (hlt : m < N) :
    ∑ n ∈ Finset.range N, turn N (m * n) = 0 := by
  have hpowers : ∑ n ∈ Finset.range N, turn N (m * n) = ∑ n ∈ Finset.range N, turn N m ^ n :=
    Finset.sum_congr rfl fun n _ => (turn_pow N m n).symm
  have hwhole : turn N m ^ N = 1 := by
    rw [turn_pow, mul_comm]
    exact turn_whole (by omega) m
  rw [hpowers, geom_sum_eq (turn_ne_one hm hlt), hwhole, sub_self, zero_div]

section

variable {values : List ℝ} {j k : ℕ}

/-- **The transform of real values is conjugate at the mirrored index.** -/
theorem dft_mirror (hj : j ≤ values.length) :
    dft values (values.length - j) = conj (dft values j) := by
  unfold dft
  rw [map_sum]
  refine Finset.sum_congr rfl fun n hn => ?_
  have hN : values.length ≠ 0 := by
    have := Finset.mem_range.mp hn
    omega
  have hsplit : (-(((values.length - j : ℕ) : ℤ) * n)) =
      values.length * (-n : ℤ) + -(-(j * n)) := by
    rw [Nat.cast_sub hj]
    ring
  rw [map_mul, conj_ofReal, conj_turn, hsplit, turn_add, turn_whole hN, one_mul]

theorem norm_dft_mirror (hj : j ≤ values.length) :
    ‖dft values (values.length - j)‖ = ‖dft values j‖ := by
  rw [dft_mirror hj, norm_conj]

/-- **The transform of a cosine at its own frequency.** -/
theorem norm_dft_cosine {amplitude phase : ℝ} (hk : 0 < k) (hlt : 2 * k < values.length)
    (hvalues : ∀ n < values.length, values.getD n 0 =
      amplitude * Real.cos (2 * Real.pi * k * n / values.length + phase)) :
    ‖dft values k‖ = |amplitude| * values.length / 2 := by
  have hterm : ∀ n ∈ Finset.range values.length,
      (values.getD n 0 : ℂ) * turn values.length (-(k * n)) =
        amplitude / 2 * exp (phase * I) +
          amplitude / 2 * exp (-(phase * I)) * conj (turn values.length ((2 * k : ℕ) * n)) := by
    intro n hn
    have hturn : exp ((2 * Real.pi * k * n / values.length : ℝ) * I) =
        turn values.length (k * n) := by
      unfold turn
      push_cast
      ring_nf
    have hcos : ((values.getD n 0 : ℝ) : ℂ) = amplitude / 2 *
        (exp (phase * I) * turn values.length (k * n) +
          exp (-(phase * I)) * turn values.length (-(k * n))) := by
      rw [hvalues n (Finset.mem_range.mp hn)]
      push_cast
      rw [Complex.cos]
      rw [← conj_turn, ← hturn, ← exp_conj]
      simp only [map_mul, conj_I, conj_ofReal]
      rw [← exp_add, ← exp_add]
      push_cast
      ring_nf
    rw [hcos, conj_turn, mul_assoc, add_mul, mul_assoc, mul_assoc, ← turn_add, ← turn_add]
    have hrest : (k * n + -(k * n) : ℤ) = 0 := add_neg_cancel _
    have hdouble : (-(k * n) + -(k * n) : ℤ) = -((2 * k : ℕ) * n) := by
      push_cast
      ring
    rw [hrest, hdouble, turn_zero]
    ring
  have hsum : dft values k = amplitude / 2 * exp (phase * I) * values.length := by
    unfold dft
    rw [Finset.sum_congr rfl hterm, Finset.sum_add_distrib, Finset.sum_const, Finset.card_range,
      nsmul_eq_mul, ← Finset.mul_sum, ← map_sum, sum_turn (by omega) hlt, map_zero, mul_zero,
      add_zero, mul_comm]
  rw [hsum, norm_mul, norm_mul, norm_exp_ofReal_mul_I, mul_one, norm_div, norm_real,
    Complex.norm_natCast, Real.norm_eq_abs, RCLike.norm_ofNat]
  ring

end

end ProtoScope.Library
