/-
The visible part on the axis of the sample frequency.

The visible part is computed by rounding products of time and frequency, a query finds its range
by comparing times.  On this axis the time of a sample is before a bound exactly when its index
is below the bound rounded up, so both cut at the same places.
-/
import Mathlib.Algebra.Order.Floor.Semiring
import ProtoScope.Proofs.Plot.DisplayQueries
import ProtoScope.Proofs.Plot.PrunedSearch

namespace ProtoScope.Plot

open ProtoScope.Library
open WaveScalar WaveArith

/-! ### Rounding -/

theorem ceil_rat (x : ℚ) : ceil x = (⌈x⌉ : ℚ) := by
  have hfloor : ceil x = -((⌊-x⌋ : ℤ) : ℚ) := rfl
  rw [hfloor, Int.floor_neg, Int.cast_neg, neg_neg]

/-- A number that fits is rounded to an index. -/
theorem toUInt64_ceil {x : ℚ} (h : ⌈x⌉₊ < 2 ^ 64) : (toUInt64 (ceil x)).toNat = ⌈x⌉₊ := by
  have hword : toUInt64 (ceil x) = UInt64.ofNat ⌊ceil x⌋₊ := rfl
  rw [hword, ceil_rat, ← Int.floor_toNat, Int.floor_intCast, Int.ceil_toNat,
    UInt64.toNat_ofNat_of_lt' h]

theorem toUInt64_floor_succ {x : ℚ} (h : ⌊x⌋₊ + 1 < 2 ^ 64) :
    (toUInt64 (floor x) + 1).toNat = ⌊x⌋₊ + 1 := by
  have hfloor : floor x = ((⌊x⌋ : ℤ) : ℚ) := rfl
  have hword : toUInt64 (floor x) = UInt64.ofNat ⌊floor x⌋₊ := rfl
  have hsmall : ⌊x⌋₊ < 2 ^ 64 := Nat.lt_of_succ_lt h
  rw [UInt64.toNat_add, hword, hfloor, ← Int.floor_toNat, Int.floor_intCast, Int.floor_toNat,
    UInt64.toNat_ofNat_of_lt' hsmall]
  exact Nat.mod_eq_of_lt h

/-- Two cuts of the same indices agree. -/
theorem eq_min_of_cut {n bound cut : ℕ} (hle : bound ≤ n) (h : ∀ i < n, i < bound ↔ i < cut) :
    bound = min cut n := by
  refine le_antisymm (le_min ?_ hle) ?_
  · by_contra hlt
    have hcut := (h cut ((not_le.mp hlt).trans_le hle)).mp (not_le.mp hlt)
    exact absurd hcut (lt_irrefl cut)
  · by_contra hlt
    obtain ⟨hcut, hn⟩ := lt_min_iff.mp (not_le.mp hlt)
    exact absurd ((h bound hn).mpr hcut) (lt_irrefl bound)

/-- A difference of indices that is cut off at zero. -/
theorem saturating_sub (index offset : ℕ) :
    (if index ≤ offset then 0 else index - offset) = index - offset := by
  split
  · exact (Nat.sub_eq_zero_of_le ‹_›).symm
  · rfl

/-! ### The view on the axis of the frequency -/

section

variable {channel : ChannelView ℚ} {frequency : ℚ} {formula : WaveDisplayFormula}

/-- The view a query takes on the axis of the sample frequency. -/
def frequencyView (channel : ChannelView ℚ) (frequency : ℚ) (formula : WaveDisplayFormula) :
    WaveQueryView ℚ :=
  ⟨channel, .sampleFrequency, frequency, formula⟩

theorem frequencyView_time (hfrequency : 0 < frequency) (i : ℕ) :
    (frequencyView channel frequency formula).time i =
      ((channel.sampleIndexOffset + i : ℕ) : ℚ) / frequency :=
  if_pos (decide_eq_true hfrequency)

theorem frequencyView_increases (channel : ChannelView ℚ) (formula : WaveDisplayFormula)
    (hfrequency : 0 < frequency) :
    (frequencyView channel frequency formula).TimesIncrease := by
  intro i j hij _
  rw [frequencyView_time hfrequency, frequencyView_time hfrequency]
  refine div_lt_div_of_pos_right ?_ hfrequency
  exact_mod_cast Nat.add_lt_add_left hij _

/-- The samples before a time are those whose index is below the product rounded up. -/
theorem bound_before (hfrequency : 0 < frequency) (t : ℚ) :
    (frequencyView channel frequency formula).bound t false =
      min (⌈t * frequency⌉₊ - channel.sampleIndexOffset) channel.samples.length := by
  have htimes := (frequencyView_increases channel formula hfrequency).ascend
  refine eq_min_of_cut (WaveQueryView.bound_le_size t false) fun i hi => ?_
  rw [htimes.before_iff hi, frequencyView_time hfrequency, div_lt_iff₀ hfrequency,
    Nat.lt_sub_iff_add_lt', Nat.lt_ceil]

/-- The samples up to a time are those whose index is at most the product rounded down. -/
theorem bound_upto (hfrequency : 0 < frequency) {t : ℚ} (ht : 0 ≤ t) :
    (frequencyView channel frequency formula).bound t true =
      min (⌊t * frequency⌋₊ + 1 - channel.sampleIndexOffset) channel.samples.length := by
  have htimes := (frequencyView_increases channel formula hfrequency).ascend
  refine eq_min_of_cut (WaveQueryView.bound_le_size t true) fun i hi => ?_
  rw [htimes.upto_iff hi, frequencyView_time hfrequency, div_le_iff₀ hfrequency,
    Nat.lt_sub_iff_add_lt', Nat.lt_succ_iff, Nat.le_floor_iff (mul_nonneg ht hfrequency.le)]

end

/-! ### Both ranges -/

/-- **Rounding finds the range that the search finds.** -/
theorem sampleFrequencyRange_eq (channel : ChannelView ℚ) (formula : WaveDisplayFormula)
    {minTime maxTime frequency : ℚ} (hfrequency : 0 < frequency) (hlater : 0 ≤ max minTime maxTime)
    (hfits : ⌊max minTime maxTime * frequency⌋₊ + 1 < 2 ^ 64) :
    sampleFrequencyRange channel minTime maxTime frequency =
      (frequencyView channel frequency formula).range minTime maxTime true := by
  have hle : min minTime maxTime ≤ max minTime maxTime := min_le_max
  -- the clamped times
  have hmin : (if lt zero (min minTime maxTime) then min minTime maxTime else zero : ℚ) =
      max 0 (min minTime maxTime) := by
    rw [lt_rat, zero_rat]
    by_cases hpositive : 0 < min minTime maxTime
    · rw [if_pos (decide_eq_true hpositive), max_eq_right hpositive.le]
    · rw [if_neg (by simpa using hpositive), max_eq_left (not_lt.mp hpositive)]
  have hmax : (if lt (max 0 (min minTime maxTime)) (max minTime maxTime) then max minTime maxTime
      else max 0 (min minTime maxTime) : ℚ) = max minTime maxTime := by
    rw [lt_rat]
    by_cases hless : max 0 (min minTime maxTime) < max minTime maxTime
    · rw [if_pos (decide_eq_true hless)]
    · rw [if_neg (by simpa using hless)]
      exact le_antisymm (max_le hlater hle) (not_lt.mp hless)
  -- the index rounded up is at most one above the one rounded down
  have hceil : ⌈max 0 (min minTime maxTime) * frequency⌉₊ ≤
      ⌊max minTime maxTime * frequency⌋₊ + 1 := by
    refine Nat.ceil_le.mpr ?_
    have hmono := mul_le_mul_of_nonneg_right (max_le hlater hle) hfrequency.le
    have hfloor := (Nat.lt_floor_add_one (max minTime maxTime * frequency)).le
    push_cast
    linarith
  have hbelow : ⌈max 0 (min minTime maxTime) * frequency⌉₊ =
      ⌈min minTime maxTime * frequency⌉₊ := by
    rcases le_total 0 (min minTime maxTime) with hpositive | hnegative
    · rw [max_eq_right hpositive]
    · rw [max_eq_left hnegative, zero_mul, Nat.ceil_zero, eq_comm, Nat.ceil_eq_zero]
      exact mul_nonpos_of_nonpos_of_nonneg hnegative hfrequency.le
  unfold sampleFrequencyRange WaveQueryView.range
  rw [WaveQueryView.ordered_eq]
  dsimp only
  rw [hmin, hmax, bound_before hfrequency, bound_upto hfrequency hlater]
  have hmul : ∀ a b : ℚ, mul a b = a * b := fun _ _ => rfl
  rw [hmul, hmul, toUInt64_ceil (hceil.trans_lt hfits), toUInt64_floor_succ hfits, saturating_sub,
    saturating_sub, hbelow]
  rw [hbelow] at hceil
  have hsize : (frequencyView channel frequency formula).size = channel.samples.length := rfl
  rw [hsize]
  generalize ⌈min minTime maxTime * frequency⌉₊ = first at hceil
  generalize ⌊max minTime maxTime * frequency⌋₊ + 1 = last at hceil
  have hordered : ¬ min (last - channel.sampleIndexOffset) channel.samples.length <
      min (first - channel.sampleIndexOffset) channel.samples.length := by omega
  rw [if_neg hordered]
  simp only [Bool.true_and, decide_eq_true_eq]

/-- **The visible part on the axis of the sample frequency is the range with guards that a query
finds by binary search**, for every channel, wherever its first sample stands, and every window
that does not end before time zero. -/
theorem visible_range_is_query_range (snapshot : WaveSnapshot ℚ)
    (minTime maxTime sampleFrequencyHz : ℚ) (hfrequency : 0 < sampleFrequencyHz)
    (hlater : 0 ≤ max minTime maxTime)
    (hfits : ⌊max minTime maxTime * sampleFrequencyHz⌋₊ + 1 < 2 ^ 64) :
    let shown := applySampleFrequencyVisibleRange snapshot minTime maxTime sampleFrequencyHz
    shown.channels.map (·.toChannelView) = snapshot.channels.map (·.toChannelView) ∧
      ∀ channel ∈ shown.channels, (channel.visibleBegin, channel.visibleEnd) =
        (frequencyView channel.toChannelView sampleFrequencyHz shown.displayFormula).range
          minTime maxTime true := by
  intro shown
  have hshown : shown = applySampleFrequencyVisibleRange snapshot minTime maxTime
      sampleFrequencyHz := rfl
  unfold applySampleFrequencyVisibleRange at hshown
  rw [if_neg (by simp [hfrequency])] at hshown
  refine ⟨?_, fun channel hchannel => ?_⟩
  · rw [hshown, List.map_map]
    rfl
  · rw [hshown] at hchannel
    obtain ⟨original, -, rfl⟩ := List.mem_map.mp hchannel
    exact sampleFrequencyRange_eq original.toChannelView shown.displayFormula hfrequency hlater
      hfits

theorem late_begin_le : 0 ≤ 3 := Nat.zero_le 3

theorem late_end_le : 3 ≤ 3 := Nat.le_refl 3

/-- Three samples, the first of them the fifth that was recorded. -/
def lateChannel : SnapshotChannel ℚ where
  samples := [⟨0, 1⟩, ⟨1, 2⟩, ⟨2, 3⟩]
  sampleIndexOffset := 5
  summaryIndex := none
  ratio := 1
  scale := 1
  offset := 0
  visibleBegin := 0
  visibleEnd := 3
  bitDisplayEnabled := false
  begin_le_end := late_begin_le
  end_le_total := late_end_le

/-- At ten samples a second, a reversed window around the second sample that is left. -/
theorem visible_range_is_query_range_late :
    let shown := applySampleFrequencyVisibleRange ⟨[lateChannel], .offsetThenScale⟩
      (13 / 20) (11 / 20) 10
    shown.channels.map (·.toChannelView) = [lateChannel.toChannelView] ∧
      ∀ channel ∈ shown.channels, (channel.visibleBegin, channel.visibleEnd) =
        (frequencyView channel.toChannelView 10 shown.displayFormula).range (13 / 20) (11 / 20)
          true :=
  visible_range_is_query_range ⟨[lateChannel], .offsetThenScale⟩ (13 / 20) (11 / 20) 10
    (by norm_num) (by norm_num) (by norm_num [Nat.floor_eq_iff])

end ProtoScope.Plot
