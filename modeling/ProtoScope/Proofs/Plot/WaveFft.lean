/-
The magnitudes of a spectrum, in exact arithmetic.

The transform of real values has the same magnitude at a bin and at its mirror image, so a bin with
a mirror image of its own has to count twice.  The code counts every bin twice but the first and
the last one.  The last one is its own mirror image only if the number of points is even; if it is
odd, the last bin has half the magnitude it should have.
-/
import Mathlib.Analysis.SpecialFunctions.Complex.Arg
import Mathlib.Data.Int.Log
import ProtoScope.Library.DiscreteFourier
import ProtoScope.Plot.WaveFft

namespace ProtoScope.Plot

open ProtoScope.Library
open WaveScalar WaveArith WaveTrig PartitionPoint

section

local instance atLeastTen : Nat.AtLeastTwo 10 := ⟨by decide⟩

open Classical in
/-- Exact arithmetic. -/
noncomputable instance : WaveTrig ℝ where
  zero := 0
  sub := fun a b => a - b
  neg := fun a => -a
  lt := fun a b => decide (a < b)
  le := fun a b => decide (a ≤ b)
  eq := fun a b => decide (a = b)
  isFinite := fun _ => true
  uint64Max := 2 ^ 64
  toUInt64 := fun a => UInt64.ofNat ⌊a⌋₊
  add := fun a b => a + b
  mul := fun a b => a * b
  div := fun a b => a / b
  floor := fun a => ⌊a⌋
  ofSize := fun size => size
  exp2CeilLog2 := fun x => if x ≤ 0 then 0 else 2 ^ Int.clog 2 x
  tiny := 1 / 10 ^ 300
  pi := 3.141592653589793238462643383279502884
  cos := Real.cos
  hypot := fun x y => Real.sqrt (x ^ 2 + y ^ 2)
  atan2 := fun y x => Complex.arg ⟨x, y⟩

end

/-- The library computes the discrete Fourier transform, of which it gives the first half. -/
def ExactTransform (r2c : List ℝ → List (ℝ × ℝ)) : Prop :=
  ∀ values, r2c values =
    (List.range (values.length / 2 + 1)).map fun k => ((dft values k).re, (dft values k).im)

/-! ### What a bin should read -/

/-- The bins that tell of the frequency of bin `k` of `N`: itself and its mirror image. -/
def mirrored (N k : ℕ) : Finset ℕ := {k, (N - k) % N}

/-- Every bin reads the whole amplitude at its frequency. -/
def Amplitudes (windowed : List ℝ) (coherentGain : ℝ) (bins : List (WaveFftBin ℝ)) : Prop :=
  ∀ k ≤ windowed.length / 2, ∃ bin, bins[k]? = some bin ∧
    bin.magnitude = (∑ j ∈ mirrored windowed.length k, ‖dft windowed j‖) /
      (windowed.length * coherentGain)

/-- A cosine at the frequency of a bin reads its amplitude there. -/
def ReadsCosines (values : List ℝ) (bins : List (WaveFftBin ℝ)) : Prop :=
  ∀ (k : ℕ) (amplitude phase : ℝ), 0 < k → 2 * k < values.length → 0 ≤ amplitude →
    (∀ n < values.length, values.getD n 0 =
      amplitude * Real.cos (2 * Real.pi * k * n / values.length + phase)) →
    ∃ bin, bins[k]? = some bin ∧ bin.magnitude = amplitude

section

variable {values : List ℝ} {k : ℕ}

theorem sum_mirrored (hpos : 0 < values.length) (hk : k ≤ values.length / 2) :
    ∑ j ∈ mirrored values.length k, ‖dft values j‖ =
      (if k = 0 ∨ 2 * k = values.length then 1 else 2) * ‖dft values k‖ := by
  unfold mirrored
  rcases Nat.eq_zero_or_pos k with rfl | hkpos
  · rw [Nat.sub_zero, Nat.mod_self, Finset.pair_eq_singleton, Finset.sum_singleton,
      if_pos (Or.inl rfl), one_mul]
  · rw [Nat.mod_eq_of_lt (by omega)]
    by_cases hmiddle : 2 * k = values.length
    · have hself : values.length - k = k := by omega
      rw [hself, Finset.pair_eq_singleton, Finset.sum_singleton, if_pos (Or.inr hmiddle), one_mul]
    · rw [Finset.sum_pair (by omega), norm_dft_mirror (by omega), if_neg (by omega), two_mul]

/-- **What the code makes of a bin of the transform.** -/
theorem appendFftBins_magnitude {r2c : List ℝ → List (ℝ × ℝ)} (hexact : ExactTransform r2c)
    (hk : k ≤ values.length / 2) (coherentGain frequencyResolutionHz : ℝ) :
    ∃ bin, (appendFftBins (r2c values) values.length coherentGain
        frequencyResolutionHz)[k]? = some bin ∧
      bin.magnitude = (if 0 < k ∧ k < values.length / 2 then 2 else 1) * ‖dft values k‖ /
        (values.length * coherentGain) := by
  have hlength : (r2c values).length = values.length / 2 + 1 := by
    rw [hexact, List.length_map, List.length_range]
  have hget : (r2c values)[k]? = some ((dft values k).re, (dft values k).im) := by
    rw [hexact, List.getElem?_map, List.getElem?_range (by omega)]
    rfl
  have hnorm : (hypot (dft values k).re (dft values k).im : ℝ) = ‖dft values k‖ :=
    (Complex.norm_eq_sqrt_sq_add_sq _).symm
  unfold appendFftBins
  rw [List.getElem?_mapIdx, hget]
  refine ⟨_, rfl, ?_⟩
  dsimp only
  rw [hlength, hnorm]
  by_cases hinner : 0 < k ∧ k < values.length / 2
  · rw [if_pos hinner, if_pos ⟨hinner.1, by omega⟩]
    show ‖dft values k‖ / (values.length * coherentGain) * ((2 : ℕ) : ℝ) = _
    push_cast
    ring
  · rw [if_neg hinner, if_neg (by omega), one_mul]
    rfl

/-- **The amplitudes are right, unless the last bin has a mirror image.** -/
theorem amplitudes_iff {r2c : List ℝ → List (ℝ × ℝ)} (hexact : ExactTransform r2c)
    (hlength : 2 ≤ values.length) {coherentGain : ℝ} (hgain : 0 < coherentGain)
    (frequencyResolutionHz : ℝ) :
    Amplitudes values coherentGain
        (appendFftBins (r2c values) values.length coherentGain frequencyResolutionHz) ↔
      Even values.length ∨ dft values (values.length / 2) = 0 := by
  have hscale : (values.length * coherentGain : ℝ) ≠ 0 := by
    have : (0 : ℝ) < values.length := by exact_mod_cast (by omega : 0 < values.length)
    positivity
  have hbin : ∀ k ≤ values.length / 2,
      (∃ bin, (appendFftBins (r2c values) values.length coherentGain
          frequencyResolutionHz)[k]? = some bin ∧
        bin.magnitude = (∑ j ∈ mirrored values.length k, ‖dft values j‖) /
          (values.length * coherentGain)) ↔
      (if 0 < k ∧ k < values.length / 2 then 2 else 1) * ‖dft values k‖ =
        (if k = 0 ∨ 2 * k = values.length then 1 else 2) * ‖dft values k‖ := by
    intro k hk
    obtain ⟨bin, hget, hmagnitude⟩ :=
      appendFftBins_magnitude hexact hk coherentGain frequencyResolutionHz
    rw [← sum_mirrored (by omega) hk, ← div_left_inj' hscale, ← hmagnitude]
    constructor
    · rintro ⟨other, hother, heq⟩
      cases Option.some.inj (hget.symm.trans hother)
      exact heq
    · exact fun heq => ⟨bin, hget, heq⟩
  constructor
  · intro h
    have hlast := (hbin _ le_rfl).mp (h _ le_rfl)
    rw [if_neg (by omega)] at hlast
    rcases Nat.even_or_odd values.length with heven | hodd
    · exact Or.inl heven
    · have hmirror : ¬ 2 * (values.length / 2) = values.length := by
        obtain ⟨m, hm⟩ := hodd
        omega
      rw [if_neg (by omega)] at hlast
      exact Or.inr (norm_eq_zero.mp (by linarith))
  · intro h k hk
    refine (hbin k hk).mpr ?_
    by_cases hzero : k = 0
    · rw [if_neg (by omega), if_pos (Or.inl hzero)]
    · rcases Nat.lt_or_eq_of_le hk with hinner | rfl
      · rw [if_pos ⟨by omega, hinner⟩, if_neg (by omega)]
      · rcases h with heven | hsilent
        · rw [if_neg (by omega), if_pos (Or.inr (Nat.two_mul_div_two_of_even heven))]
        · rw [hsilent, norm_zero, mul_zero, mul_zero]

/-- Amplitudes that are right are those of the cosines. -/
theorem Amplitudes.readsCosines {bins : List (WaveFftBin ℝ)} (h : Amplitudes values 1 bins) :
    ReadsCosines values bins := by
  intro k amplitude phase hk hlt hamplitude hvalues
  obtain ⟨bin, hget, hmagnitude⟩ := h k (by omega)
  refine ⟨bin, hget, ?_⟩
  have hlength : (values.length : ℝ) ≠ 0 := by exact_mod_cast (by omega : values.length ≠ 0)
  rw [hmagnitude, sum_mirrored (by omega) (by omega), if_neg (by omega),
    norm_dft_cosine hk hlt hvalues, abs_of_nonneg hamplitude]
  field_simp

end

/-! ### The channel -/

/-- The last values, which the window is laid over. -/
def keptValues (values : List ℝ) (pointCount : ℕ) : List ℝ :=
  values.drop (values.length - pointCount)

section

variable {config : WaveFftConfig} {values : List ℝ} {pointCount : ℕ}

theorem length_keptValues (h : pointCount ≤ values.length) :
    (keptValues values pointCount).length = pointCount := by
  unfold keptValues
  rw [List.length_drop, Nat.sub_sub_self h]

theorem length_windowed (h : pointCount ≤ values.length) (window : WaveFftWindow) :
    (applyFftWindow values window pointCount).1.length = pointCount := by
  have hkept := length_keptValues h
  unfold keptValues at hkept
  unfold applyFftWindow windowWeights
  rw [List.length_zipWith, hkept, List.length_map, List.length_range, Nat.min_self]

theorem rectangular_weights :
    (windowWeights .rectangular pointCount : List ℝ) = List.replicate pointCount 1 := by
  have hweight : ∀ index ∈ List.range pointCount,
      (windowWeight .rectangular index pointCount : ℝ) = 1 := by
    intro index _
    unfold windowWeight
    split <;> exact Nat.cast_one
  have hlength := List.map_eq_replicate_iff.mpr hweight
  rwa [List.length_range] at hlength

theorem rectangular_windowed (h : pointCount ≤ values.length) :
    (applyFftWindow values .rectangular pointCount).1 = keptValues values pointCount := by
  have hkept := length_keptValues h
  unfold applyFftWindow
  rw [rectangular_weights]
  show List.zipWith mul (keptValues values pointCount) _ = _
  refine List.ext_getElem (by simp [hkept]) fun n hn _ => ?_
  rw [List.getElem_zipWith, List.getElem_replicate]
  exact mul_one _

theorem rectangular_meanWeight (hpos : 0 < pointCount) :
    (meanWeight .rectangular pointCount : ℝ) = 1 := by
  have hsum : ∀ (count : ℕ) (start : ℝ),
      (List.replicate count 1).foldl add start = start + count := by
    intro count
    induction count with
    | zero => exact fun start => by simp
    | succ count ih =>
      intro start
      rw [List.replicate_succ, List.foldl_cons, ih, Nat.cast_succ]
      show start + 1 + count = _
      ring
  unfold meanWeight
  rw [rectangular_weights, hsum]
  show (0 + (pointCount : ℝ)) / pointCount = 1
  rw [zero_add]
  exact div_self (by exact_mod_cast hpos.ne')

end

/-- **The bins of a channel have the magnitudes of the amplitudes at their frequencies exactly
when the number of points is even, or there is nothing at the last bin.** -/
theorem fft_amplitudes_iff {r2c : List ℝ → List (ℝ × ℝ)} (hexact : ExactTransform r2c)
    (config : WaveFftConfig) (channel : WaveDisplayChannel ℝ) (analysisSampleCount : Option ℕ)
    (viewMinTime viewMaxTime sampleFrequencyHz : ℝ) {values windowed : List ℝ} {pointCount : ℕ}
    (hvalues : collectVisibleFiniteFftValues channel viewMinTime viewMaxTime = values)
    (hcount : resolveWaveFftPointCount config (analysisSampleCount.getD values.length) =
      pointCount)
    (hleast : kMinFftPointCount ≤ pointCount) (henough : pointCount ≤ values.length)
    (hwindowed : (applyFftWindow values config.window pointCount).1 = windowed)
    (hgain : (0 : ℝ) < meanWeight config.window pointCount) :
    ∃ bins, buildFftChannel r2c config channel analysisSampleCount viewMinTime viewMaxTime
        sampleFrequencyHz = some bins ∧
      (Amplitudes windowed (meanWeight config.window pointCount) bins ∧
          (config.window = .rectangular →
            ReadsCosines (keptValues values pointCount) bins) ↔
        Even pointCount ∨ dft windowed (pointCount / 2) = 0) := by
  have hlength : windowed.length = pointCount := hwindowed ▸ length_windowed henough config.window
  have hcoherent : (applyFftWindow values config.window pointCount).2 =
      meanWeight config.window pointCount := by
    unfold applyFftWindow
    exact if_neg (by simpa [WaveScalar.le, WaveScalar.zero, WaveScalar.isFinite] using hgain)
  have htwo : 2 ≤ windowed.length := by
    rw [hlength]
    exact le_trans (by decide) hleast
  have hiff := amplitudes_iff hexact htwo hgain
    (div sampleFrequencyHz (ofSize pointCount))
  rw [hlength] at hiff
  refine ⟨appendFftBins (r2c windowed) pointCount (meanWeight config.window pointCount)
    (div sampleFrequencyHz (ofSize pointCount)), ?_, fun h => hiff.mp h.1, fun h =>
    ⟨hiff.mpr h, fun hrectangular => ?_⟩⟩
  · unfold buildFftChannel
    dsimp only
    rw [hvalues, hcount, if_neg (by omega), hcoherent, hwindowed]
  · have hkept : windowed = keptValues values pointCount := by
      rw [← hwindowed, hrectangular, rectangular_windowed henough]
    have hamplitudes := hiff.mpr h
    rw [hrectangular, rectangular_meanWeight (lt_of_lt_of_le (by decide) hleast)] at hamplitudes ⊢
    rw [← hkept]
    exact hamplitudes.readsCosines

/-! ### A tone -/

/-- One sample after the other of a cosine that fits in `k` times. -/
noncomputable def toneValues (count k : ℕ) : List ℝ :=
  (List.range count).map fun n : ℕ => Real.cos (2 * Real.pi * k * n / count + 0)

noncomputable def toneChannel (count k : ℕ) : WaveDisplayChannel ℝ where
  samples := (List.range count).map fun n : ℕ => ⟨n, 0⟩
  actualValues := toneValues count k

/-- The transform of the library, exactly. -/
noncomputable def exactR2c (values : List ℝ) : List (ℝ × ℝ) :=
  (List.range (values.length / 2 + 1)).map fun k => ((dft values k).re, (dft values k).im)

theorem exactR2c_exact : ExactTransform exactR2c := fun _ => rfl

theorem length_toneValues (count k : ℕ) : (toneValues count k).length = count := by
  unfold toneValues
  rw [List.length_map, List.length_range]

theorem toneValues_get {count k n : ℕ} (hn : n < count) : (toneValues count k).getD n 0 =
    1 * Real.cos (2 * Real.pi * k * n / (toneValues count k).length + 0) := by
  rw [length_toneValues, one_mul]
  unfold toneValues
  rw [List.getD_eq_getElem?_getD, List.getElem?_map, List.getElem?_range hn]
  rfl

theorem collect_tone (count k : ℕ) :
    collectVisibleFiniteFftValues (toneChannel count k) 0 count = toneValues count k := by
  have hsamples : (toneChannel count k).samples.length = count := by
    show ((List.range count).map _).length = count
    rw [List.length_map, List.length_range]
  have hvalues : (toneChannel count k).actualValues = toneValues count k := rfl
  have htimes : ∀ sample ∈ (toneChannel count k).samples,
      (0 : ℝ) ≤ sample.time ∧ sample.time ≤ count := by
    intro sample hmem
    obtain ⟨n, hn, rfl⟩ := List.mem_map.mp hmem
    exact ⟨Nat.cast_nonneg n, Nat.cast_le.mpr (List.mem_range.mp hn).le⟩
  have hnone : ∀ sample ∈ (toneChannel count k).samples, lt sample.time (0 : ℝ) = false := by
    intro sample hmem
    simpa [lt] using (htimes sample hmem).1
  have hbegin : find (fun sample : WaveSample ℝ => lt sample.time 0)
      (toneChannel count k).samples = 0 := by
    have hdown : PartitionPoint.Downward (fun sample : WaveSample ℝ => lt sample.time 0)
        (toneChannel count k).samples :=
      List.pairwise_of_forall_mem_list fun _ _ y hy hheld =>
        absurd ((hnone y hy).symm.trans hheld) Bool.false_ne_true
    by_contra hne
    have hle := find_le hdown
    have hheld := before_of_lt_find hdown (Nat.pos_of_ne_zero hne) (by omega)
    rw [hnone _ (List.getElem_mem _)] at hheld
    cases hheld
  have hfin : find (fun sample : WaveSample ℝ => !lt (count : ℝ) sample.time)
      (toneChannel count k).samples = count := by
    rw [find_eq_length, hsamples]
    intro sample hmem
    simpa [lt] using (htimes sample hmem).2
  unfold collectVisibleFiniteFftValues
  dsimp only
  rw [hvalues, hsamples, length_toneValues, Nat.min_self, List.take_of_length_le hsamples.le,
    hbegin, Nat.zero_add, List.drop_zero, List.drop_zero, hfin,
    List.take_of_length_le (length_toneValues count k).le]
  exact List.filter_eq_self.mpr fun _ _ => rfl

/-- An even number of points reads a tone right. -/
theorem fft_amplitudes_even_tone :
    ∃ bins, buildFftChannel exactR2c { window := .rectangular } (toneChannel 16 3) none 0 (16 : ℕ)
        1000 = some bins ∧
      Amplitudes (applyFftWindow (toneValues 16 3) .rectangular 16).1
        (meanWeight .rectangular 16) bins ∧
      ReadsCosines (keptValues (toneValues 16 3) 16) bins := by
  have hlength := length_toneValues 16 3
  obtain ⟨bins, hbins, hiff⟩ := fft_amplitudes_iff exactR2c_exact { window := .rectangular }
    (toneChannel 16 3) none 0 (16 : ℕ) 1000 (collect_tone 16 3)
    (show _ = 16 by rw [hlength]; rfl) (by decide) hlength.ge rfl
    (by rw [rectangular_meanWeight (by decide)]; exact one_pos)
  obtain ⟨hamplitudes, hreads⟩ := hiff.mpr (Or.inl (by decide))
  exact ⟨bins, hbins, hamplitudes, hreads rfl⟩

/-- Seventeen points of a tone at the last bin, which reads half of it. -/
theorem last_odd_bin_halved :
    ∃ bins, buildFftChannel exactR2c { window := .rectangular } (toneChannel 17 8) none 0 (17 : ℕ)
        1000 = some bins ∧
      (∃ bin, bins[8]? = some bin ∧ bin.magnitude = 1 / 2) ∧
      ¬ Amplitudes (toneValues 17 8) 1 bins ∧ ¬ ReadsCosines (toneValues 17 8) bins := by
  have hlength := length_toneValues 17 8
  have hnorm : ‖dft (toneValues 17 8) 8‖ = 17 / 2 := by
    rw [norm_dft_cosine (by decide) (by rw [hlength]; decide) fun n hn =>
      toneValues_get (hlength ▸ hn), hlength, abs_one]
    norm_num
  have hkept : keptValues (toneValues 17 8) 17 = toneValues 17 8 := by
    unfold keptValues
    rw [hlength]
    rfl
  obtain ⟨bin, hget, hmagnitude⟩ := appendFftBins_magnitude exactR2c_exact
    (show 8 ≤ (toneValues 17 8).length / 2 by rw [hlength]) 1 (div 1000 (ofSize 17))
  rw [hlength] at hget hmagnitude
  have hhalf : bin.magnitude = 1 / 2 := by
    rw [hmagnitude, hnorm]
    norm_num
  refine ⟨appendFftBins (exactR2c (toneValues 17 8)) 17 1 (div 1000 (ofSize 17)), ?_,
    ⟨bin, hget, hhalf⟩, fun h => ?_, fun h => ?_⟩
  · have hcoherent : (applyFftWindow (toneValues 17 8) .rectangular 17).2 = 1 := by
      unfold applyFftWindow
      rw [rectangular_meanWeight (by decide)]
      exact if_neg (by simp [WaveScalar.le, WaveScalar.zero, WaveScalar.isFinite])
    have hcount : resolveWaveFftPointCount { window := .rectangular }
        ((none : Option ℕ).getD (toneValues 17 8).length) = 17 := by
      rw [hlength]
      rfl
    unfold buildFftChannel
    dsimp only
    rw [collect_tone, hcount, hlength, if_neg (by decide), rectangular_windowed hlength.ge, hkept,
      hcoherent]
  · have hiff := amplitudes_iff exactR2c_exact
      (show 2 ≤ (toneValues 17 8).length by rw [hlength]; decide) one_pos (div 1000 (ofSize 17))
    rw [hlength] at hiff
    rcases hiff.mp h with heven | hsilent
    · exact absurd heven (by decide)
    · rw [show 17 / 2 = 8 from rfl] at hsilent
      rw [hsilent, norm_zero] at hnorm
      norm_num at hnorm
  · obtain ⟨other, hother, hone⟩ := h 8 1 0 (by decide) (by rw [hlength]; decide) zero_le_one
      fun n hn => toneValues_get (hlength ▸ hn)
    cases Option.some.inj (hget.symm.trans hother)
    rw [hhalf] at hone
    norm_num at hone

end ProtoScope.Plot
