/-
An envelope counts every sample it takes into account exactly once.

A bucket that starts where the samples that are left start takes the longest run of them
that is not behind its end, so the samples that are left again start where the next bucket
does: its start is the end of this one, the same expression.  The last bucket ends at or
behind the end of the window, so nothing is left after it.

With a limit in effect an envelope takes the last samples of the window only, while the
count that it reports is that of the whole window.
-/
import Mathlib.Algebra.BigOperators.Group.List.Basic
import Mathlib.Tactic.FieldSimp
import Mathlib.Tactic.Linarith
import ProtoScope.Plot.Envelope

namespace ProtoScope.Plot

open ProtoScope.Library EnvelopeBucket

variable {K : Type}

/-- The samples of a channel in the order of their times. -/
def SortedByTime [LE K] (samples : List (WaveSample K)) : Prop :=
  samples.Pairwise fun a b => a.time ≤ b.time

/-! ### The window -/

section Window

variable [LinearOrder K] {samples : List (WaveSample K)}

theorem SortedByTime.lower (h : SortedByTime samples) (time : K) :
    PartitionPoint.Downward (fun sample => decide (sample.time < time)) samples :=
  h.imp fun hle hb => by
    rw [decide_eq_true_iff] at hb ⊢
    exact hle.trans_lt hb

theorem SortedByTime.upper (h : SortedByTime samples) (time : K) :
    PartitionPoint.Downward (fun sample => !decide (time < sample.time)) samples :=
  h.imp fun hle hb => by
    simp only [Bool.not_eq_true', decide_eq_false_iff_not, not_lt] at hb ⊢
    exact hle.trans hb

/-- The samples of a window, both ends included. -/
def visibleSamples (samples : List (WaveSample K)) (minTime maxTime : K) : List (WaveSample K) :=
  samples.filter fun sample => decide (minTime ≤ sample.time ∧ sample.time ≤ maxTime)

theorem SortedByTime.visible (h : SortedByTime samples) (minTime maxTime : K) :
    SortedByTime (visibleSamples samples minTime maxTime) :=
  h.filter _

/-- The two searches cut the window out of the samples. -/
theorem slice_eq_visibleSamples (h : SortedByTime samples) (minTime maxTime : K) :
    (samples.drop (lowerBoundByTime samples minTime)).take
        (upperBoundByTime samples maxTime - lowerBoundByTime samples minTime)
      = visibleSamples samples minTime maxTime := by
  unfold lowerBoundByTime upperBoundByTime
  rw [PartitionPoint.slice_find (h.lower minTime) (h.upper maxTime)]
  refine List.filter_congr fun sample _ => ?_
  simp only [← decide_not, ← Bool.decide_and, not_lt]

theorem SortedByTime.upper_le (h : SortedByTime samples) (time : K) :
    upperBoundByTime samples time ≤ samples.length :=
  PartitionPoint.find_le (h.upper time)

/-- The length of the window is the distance of the two positions. -/
theorem length_visibleSamples (h : SortedByTime samples) (minTime maxTime : K) :
    (visibleSamples samples minTime maxTime).length
      = upperBoundByTime samples maxTime - lowerBoundByTime samples minTime := by
  have hupper := h.upper_le maxTime
  rw [← slice_eq_visibleSamples h, List.length_take, List.length_drop]
  omega

/-- The samples of a window that an envelope takes into account: all, or with a limit the last
ones. -/
def consideredSamples (maxSamples : ℕ) (window : List (WaveSample K)) : List (WaveSample K) :=
  if 0 < maxSamples then window.drop (window.length - maxSamples) else window

omit [LinearOrder K] in
theorem consideredSamples_suffix (maxSamples : ℕ) (window : List (WaveSample K)) :
    consideredSamples maxSamples window <:+ window := by
  unfold consideredSamples
  split
  · exact List.drop_suffix _ _
  · exact List.suffix_rfl

omit [LinearOrder K] in
theorem length_consideredSamples (maxSamples : ℕ) (window : List (WaveSample K)) :
    (consideredSamples maxSamples window).length
      = if 0 < maxSamples then min maxSamples window.length else window.length := by
  unfold consideredSamples
  split
  · rw [List.length_drop]
    omega
  · rfl

/-- The samples that the code reads are those it takes into account. -/
theorem sampled_eq_considered {samples : List (WaveSample K)} (hsorted : SortedByTime samples)
    (minTime maxTime : K) (maxSamples first : ℕ)
    (hwindow : lowerBoundByTime samples minTime < upperBoundByTime samples maxTime)
    (hfirst : first = if 0 < maxSamples ∧ maxSamples
          < upperBoundByTime samples maxTime - lowerBoundByTime samples minTime then
        upperBoundByTime samples maxTime - maxSamples
      else lowerBoundByTime samples minTime) :
    (samples.drop first).take (upperBoundByTime samples maxTime - first)
      = consideredSamples maxSamples (visibleSamples samples minTime maxTime) := by
  unfold consideredSamples
  rw [length_visibleSamples hsorted, ← slice_eq_visibleSamples hsorted, List.drop_take,
    List.drop_drop]
  by_cases hlimit : 0 < maxSamples ∧
      maxSamples < upperBoundByTime samples maxTime - lowerBoundByTime samples minTime
  · rw [if_pos hlimit] at hfirst
    have hskip : lowerBoundByTime samples minTime + (upperBoundByTime samples maxTime
        - lowerBoundByTime samples minTime - maxSamples)
          = upperBoundByTime samples maxTime - maxSamples := by omega
    have hkept : upperBoundByTime samples maxTime - lowerBoundByTime samples minTime
          - (upperBoundByTime samples maxTime - lowerBoundByTime samples minTime - maxSamples)
        = upperBoundByTime samples maxTime - (upperBoundByTime samples maxTime - maxSamples) := by
      omega
    rw [if_pos hlimit.1, hfirst, hskip, hkept]
  · rw [if_neg hlimit] at hfirst
    subst hfirst
    by_cases hpositive : 0 < maxSamples
    · have hall : upperBoundByTime samples maxTime - lowerBoundByTime samples minTime
          - maxSamples = 0 := by omega
      rw [if_pos hpositive, hall, Nat.add_zero, Nat.sub_zero]
    · rw [if_neg hpositive]

end Window

variable [Field K] [LinearOrder K] {display : K → K}

/-! ### What a point says of its samples -/

/-- A point that counts these samples: their number, their mean time, and the least and the
greatest of their display values. -/
structure Counts (display : K → K) (point : EnvelopePoint K) (samples : List (WaveSample K)) :
    Prop where
  nonempty : samples ≠ []
  count : point.sampleCount = samples.length
  mean : point.time = (samples.map (·.time)).sum / samples.length
  least : ∃ m : K, point.minValue = m ∧ IsLeast {v | ∃ s ∈ samples, v = display s.value} m
  greatest : ∃ m : K, point.maxValue = m ∧ IsGreatest {v | ∃ s ∈ samples, v = display s.value} m

/-- The points of an envelope count the samples, each in one point. -/
def CountedOnce (display : K → K) (points : List (EnvelopePoint K))
    (samples : List (WaveSample K)) : Prop :=
  ∃ blocks : List (List (WaveSample K)),
    blocks.flatten = samples ∧ List.Forall₂ (Counts display) points blocks

theorem counts_singlePoint (sample : WaveSample K) :
    Counts display (singlePoint display sample) [sample] where
  nonempty := by simp
  count := rfl
  mean := by simp [singlePoint]
  least := by
    refine ⟨display sample.value, rfl, ⟨sample, by simp, rfl⟩, ?_⟩
    rintro v ⟨s, hs, rfl⟩
    rw [List.mem_singleton.mp hs]
  greatest := by
    refine ⟨display sample.value, rfl, ⟨sample, by simp, rfl⟩, ?_⟩
    rintro v ⟨s, hs, rfl⟩
    rw [List.mem_singleton.mp hs]

theorem countedOnce_singlePoints (samples : List (WaveSample K)) :
    CountedOnce display (samples.map (singlePoint display)) samples := by
  refine ⟨samples.map fun sample => [sample], ?_, ?_⟩
  · rw [← List.flatMap_def, List.flatMap_singleton']
  rw [List.forall₂_map_left_iff, List.forall₂_map_right_iff]
  exact List.forall₂_same.mpr fun sample _ => counts_singlePoint sample

theorem CountedOnce.nil : CountedOnce display [] [] :=
  ⟨[], rfl, .nil⟩

theorem CountedOnce.append {points more : List (EnvelopePoint K)}
    {samples rest : List (WaveSample K)} (h : CountedOnce display points samples)
    (hmore : CountedOnce display more rest) :
    CountedOnce display (points ++ more) (samples ++ rest) := by
  obtain ⟨blocks, hflatten, hcounts⟩ := h
  obtain ⟨others, hothers, hrest⟩ := hmore
  refine ⟨blocks ++ others, ?_, List.rel_append hcounts hrest⟩
  rw [List.flatten_append, hflatten, hothers]

/-- The counts of the points add up to the number of samples. -/
theorem CountedOnce.sum_sampleCount {points : List (EnvelopePoint K)}
    {samples : List (WaveSample K)} (h : CountedOnce display points samples) :
    (points.map (·.sampleCount)).sum = samples.length := by
  obtain ⟨blocks, rfl, hcounts⟩ := h
  rw [List.length_flatten]
  induction hcounts with
  | nil => rfl
  | cons hfirst _ ih => rw [List.map_cons, List.map_cons, List.sum_cons, List.sum_cons,
      hfirst.count, ih]

/-! ### What a bucket gathers -/

/-- A bucket with these samples in it. -/
structure Gathered (display : K → K) (samples : List (WaveSample K)) (bucket : EnvelopeBucket K) :
    Prop where
  count : bucket.count = samples.length
  times : bucket.timeAccumulator = (samples.map (·.time)).sum
  min_le : ∀ s ∈ samples, bucket.minValue ≤ display s.value
  min_attained : bucket.minValue = ⊤ ∨ ∃ s ∈ samples, bucket.minValue = display s.value
  le_max : ∀ s ∈ samples, (display s.value : WithBot K) ≤ bucket.maxValue
  max_attained : bucket.maxValue = ⊥ ∨ ∃ s ∈ samples, bucket.maxValue = display s.value

theorem gathered_empty : Gathered display [] empty where
  count := rfl
  times := rfl
  min_le := by simp
  min_attained := .inl rfl
  le_max := by simp
  max_attained := .inl rfl

theorem Gathered.add {samples : List (WaveSample K)} {bucket : EnvelopeBucket K}
    (h : Gathered display samples bucket) (sample : WaveSample K) :
    Gathered display (samples ++ [sample]) (bucket.add sample.time (display sample.value)) where
  count := by simp [EnvelopeBucket.add, h.count]
  times := by simp [EnvelopeBucket.add, h.times]
  min_le := by
    intro s hs
    rcases List.mem_append.mp hs with hold | hnew
    · exact (min_le_left _ _).trans (h.min_le s hold)
    · rw [List.mem_singleton.mp hnew]
      exact min_le_right _ _
  min_attained := by
    rcases min_choice bucket.minValue (display sample.value : WithTop K) with hold | hnew
    · refine h.min_attained.imp hold.trans ?_
      rintro ⟨s, hs, heq⟩
      exact ⟨s, List.mem_append_left _ hs, hold.trans heq⟩
    · exact .inr ⟨sample, by simp, hnew⟩
  le_max := by
    intro s hs
    rcases List.mem_append.mp hs with hold | hnew
    · exact (h.le_max s hold).trans (le_max_left _ _)
    · rw [List.mem_singleton.mp hnew]
      exact le_max_right _ _
  max_attained := by
    rcases max_choice bucket.maxValue (display sample.value : WithBot K) with hold | hnew
    · refine h.max_attained.imp hold.trans ?_
      rintro ⟨s, hs, heq⟩
      exact ⟨s, List.mem_append_left _ hs, hold.trans heq⟩
    · exact .inr ⟨sample, by simp, hnew⟩

/-- The point of a bucket counts what the bucket has gathered. -/
theorem Gathered.counted {samples : List (WaveSample K)} {bucket : EnvelopeBucket K}
    (h : Gathered display samples bucket) : CountedOnce display bucket.point samples := by
  unfold point
  rw [h.count]
  cases samples with
  | nil => exact .nil
  | cons first rest =>
    rw [if_pos (by simp)]
    refine ⟨[first :: rest], by simp, .cons ⟨by simp, rfl, ?_, ?_, ?_⟩ .nil⟩
    · show bucket.timeAccumulator / _ = _
      rw [h.times]
    · obtain ⟨s, hs, heq⟩ := h.min_attained.resolve_left fun htop => by
        have hle := h.min_le first (by simp)
        rw [htop] at hle
        exact absurd (top_le_iff.mp hle) (WithTop.coe_ne_top)
      refine ⟨display s.value, heq, ⟨s, hs, rfl⟩, ?_⟩
      rintro v ⟨t, ht, rfl⟩
      exact WithTop.coe_le_coe.mp (heq ▸ h.min_le t ht)
    · obtain ⟨s, hs, heq⟩ := h.max_attained.resolve_left fun hbot => by
        have hle := h.le_max first (by simp)
        rw [hbot] at hle
        exact absurd (le_bot_iff.mp hle) (WithBot.coe_ne_bot)
      refine ⟨display s.value, heq, ⟨s, hs, rfl⟩, ?_⟩
      rintro v ⟨t, ht, rfl⟩
      exact WithBot.coe_le_coe.mp (heq ▸ h.le_max t ht)

/-- **A bucket takes every sample that is not behind its end.** -/
theorem fill_eq {bucketStart bucketEnd : K} {samples : List (WaveSample K)}
    (hsorted : SortedByTime samples) (hstart : ∀ s ∈ samples, bucketStart ≤ s.time)
    {seen : List (WaveSample K)} {bucket : EnvelopeBucket K} (h : Gathered display seen bucket) :
    ∃ taken rest, samples = taken ++ rest ∧ (∀ s ∈ rest, bucketEnd < s.time) ∧
      (fill display bucketStart bucketEnd bucket samples).2 = rest ∧
      Gathered display (seen ++ taken)
        (fill display bucketStart bucketEnd bucket samples).1 := by
  induction samples generalizing seen bucket with
  | nil =>
    refine ⟨[], [], rfl, by simp, rfl, ?_⟩
    rw [List.append_nil]
    exact h
  | cons sample rest ih =>
    have hrest := List.pairwise_cons.mp hsorted
    unfold fill
    by_cases hbehind : bucketEnd < sample.time
    · have hall : ∀ s ∈ sample :: rest, bucketEnd < s.time := by
        intro s hs
        rcases List.mem_cons.mp hs with rfl | hs
        · exact hbehind
        · exact hbehind.trans_le (hrest.1 s hs)
      have hskip : addWithin display bucketStart bucketEnd bucket sample = bucket :=
        if_neg fun hin => not_le.mpr hbehind hin.2
      refine ⟨[], sample :: rest, rfl, hall, ?_, ?_⟩
      · split <;> rfl
      · rw [List.append_nil, if_pos hbehind, hskip]
        split <;> exact h
    · have hin : bucketStart ≤ sample.time ∧ sample.time ≤ bucketEnd :=
        ⟨hstart sample (by simp), not_lt.mp hbehind⟩
      rw [if_neg fun hboth => hbehind hboth.1, if_neg hbehind, addWithin,
        if_pos hin]
      obtain ⟨taken, left, rfl, hleft, hfill, hgathered⟩ :=
        ih hrest.2 (fun s hs => hstart s (by simp [hs])) (h.add sample)
      refine ⟨sample :: taken, left, rfl, hleft, hfill, ?_⟩
      rw [List.append_cons]
      exact hgathered

/-! ### All buckets -/

variable [IsStrictOrderedRing K]

/-- **The buckets count every sample once.**  With no bucket left no sample is left. -/
theorem bucketPoints_counted {visibleMinTime span : K} {bucketCount : ℕ} (hcount : 0 < bucketCount)
    (buckets bucketIndex : ℕ) (hlast : bucketIndex + buckets = bucketCount)
    {samples : List (WaveSample K)} (hsorted : SortedByTime samples)
    (hstart : ∀ s ∈ samples, visibleMinTime + span * bucketIndex / bucketCount ≤ s.time)
    (hend : ∀ s ∈ samples, s.time ≤ visibleMinTime + span) (hnone : buckets = 0 → samples = []) :
    CountedOnce display
      (bucketPoints display visibleMinTime span bucketCount buckets bucketIndex samples)
      samples := by
  induction buckets generalizing bucketIndex samples with
  | zero =>
    rw [hnone rfl]
    exact .nil
  | succ buckets ih =>
    cases samples with
    | nil => exact .nil
    | cons sample rest =>
      unfold bucketPoints
      obtain ⟨taken, left, hsplit, hleft, hfill, hgathered⟩ :=
        @fill_eq K _ _ display _ (visibleMinTime + span * ((bucketIndex + 1 : ℕ) : K) / bucketCount)
          _ hsorted hstart _ _ gathered_empty
      have hmem : ∀ s ∈ left, s ∈ sample :: rest := by
        intro s hs
        rw [hsplit]
        exact List.mem_append_right taken hs
      have hdone : buckets = 0 → left = [] := by
        rintro rfl
        have hborder : visibleMinTime + span * ((bucketIndex + 1 : ℕ) : K) / bucketCount
            = visibleMinTime + span := by
          have hne : (bucketCount : K) ≠ 0 := Nat.cast_ne_zero.mpr hcount.ne'
          rw [show bucketIndex + 1 = bucketCount from hlast, mul_div_cancel_right₀ span hne]
        refine List.eq_nil_iff_forall_not_mem.mpr fun s hs => ?_
        exact not_lt.mpr (hend s (hmem s hs)) (hborder ▸ hleft s hs)
      rw [hsplit]
      refine CountedOnce.append (by rw [← hsplit]; exact hgathered.counted) ?_
      rw [← hsplit, hfill]
      refine ih (bucketIndex + 1) (by omega) ?_ (fun s hs => (hleft s hs).le)
        (fun s hs => hend s (hmem s hs)) hdone
      rw [hsplit] at hsorted
      exact (List.pairwise_append.mp hsorted).2.1

/-! ### The envelope -/

theorem samplePoints_counted {minTime maxTime : K} {sampled : List (WaveSample K)}
    (hsorted : SortedByTime sampled) (hwindow : ∀ s ∈ sampled, minTime ≤ s.time ∧ s.time ≤ maxTime)
    (pixelWidth sampledCount : ℕ) :
    CountedOnce display (samplePoints display minTime maxTime pixelWidth sampledCount sampled)
      sampled := by
  unfold samplePoints
  split
  · exact countedOnce_singlePoints _
  dsimp only
  split
  · exact countedOnce_singlePoints _
  refine bucketPoints_counted (by omega) _ 0 (by omega) hsorted ?_ ?_ (by omega)
  · intro s hs
    rw [Nat.cast_zero, mul_zero, zero_div, add_zero]
    exact (hwindow s hs).1
  · intro s hs
    calc s.time ≤ maxTime := (hwindow s hs).2
      _ = minTime + (maxTime - minTime) := (add_sub_cancel _ _).symm
      _ ≤ minTime + max (maxTime - minTime) kExactEpsilon :=
        add_le_add_right (le_max_left _ _) minTime

theorem channelEnvelope_counted (buffer : DisplayBuffer K) (channel : DisplayChannel K)
    (hsorted : SortedByTime channel.samples) (minTime maxTime : K)
    (pixelWidth maxSamples : ℕ) :
    (buffer.channelEnvelope channel minTime maxTime pixelWidth maxSamples).sourceSampleCount
        = (visibleSamples channel.samples minTime maxTime).length ∧
      CountedOnce (buffer.display channel)
        (buffer.channelEnvelope channel minTime maxTime pixelWidth maxSamples).points
        (consideredSamples maxSamples (visibleSamples channel.samples minTime maxTime)) := by
  unfold DisplayBuffer.channelEnvelope
  by_cases hempty : upperBoundByTime channel.samples maxTime
      ≤ lowerBoundByTime channel.samples minTime
  · have hnone : visibleSamples channel.samples minTime maxTime = [] := by
      rw [← List.length_eq_zero_iff, length_visibleSamples hsorted]
      omega
    rw [if_pos hempty, hnone]
    refine ⟨rfl, ?_⟩
    rw [List.suffix_nil.mp (consideredSamples_suffix maxSamples [])]
    exact .nil
  rw [if_neg hempty, length_visibleSamples hsorted]
  refine ⟨rfl, ?_⟩
  dsimp only
  rw [sampled_eq_considered hsorted minTime maxTime maxSamples _ (not_le.mp hempty) rfl]
  refine samplePoints_counted ?_ ?_ _ _
  · exact List.Pairwise.sublist (consideredSamples_suffix maxSamples _).sublist
      (hsorted.visible minTime maxTime)
  · intro s hs
    have hvisible := (consideredSamples_suffix maxSamples _).subset hs
    exact of_decide_eq_true (List.mem_filter.mp hvisible).2

namespace DisplayBuffer

/-- The samples of the visible window of a channel, whose ends may come in either order; there
are none without the channel or without a pixel. -/
def window (buffer : DisplayBuffer K) (channelIndex : ℕ) (visibleMinTime visibleMaxTime : K)
    (pixelWidth : ℕ) : List (WaveSample K) :=
  match buffer.channels[channelIndex]? with
  | none => []
  | some channel =>
    if pixelWidth = 0 then []
    else visibleSamples channel.samples (min visibleMinTime visibleMaxTime)
      (max visibleMinTime visibleMaxTime)

/-- How the values of a channel are displayed. -/
def displayOf (buffer : DisplayBuffer K) (channelIndex : ℕ) (rawValue : K) : K :=
  match buffer.channels[channelIndex]? with
  | none => rawValue
  | some channel => buffer.display channel rawValue

/-- **An envelope counts every sample it takes into account in one point**, whose least and
greatest values are those of its samples.  It reports the size of the window, and the counts of
its points add up to that, or to the limit where one is in effect. -/
theorem buildLimitedEnvelope_counts (buffer : DisplayBuffer K) (channelIndex : ℕ)
    (visibleMinTime visibleMaxTime : K) (pixelWidth maxSamples : ℕ)
    (hsorted : ∀ channel ∈ buffer.channels, SortedByTime channel.samples) :
    (buffer.buildLimitedEnvelope channelIndex visibleMinTime visibleMaxTime pixelWidth
          maxSamples).sourceSampleCount
        = (buffer.window channelIndex visibleMinTime visibleMaxTime pixelWidth).length ∧
      CountedOnce (buffer.displayOf channelIndex)
        (buffer.buildLimitedEnvelope channelIndex visibleMinTime visibleMaxTime pixelWidth
          maxSamples).points
        (consideredSamples maxSamples
          (buffer.window channelIndex visibleMinTime visibleMaxTime pixelWidth)) ∧
      ((buffer.buildLimitedEnvelope channelIndex visibleMinTime visibleMaxTime pixelWidth
            maxSamples).points.map (·.sampleCount)).sum
        = if 0 < maxSamples then
            min maxSamples (buffer.buildLimitedEnvelope channelIndex visibleMinTime
              visibleMaxTime pixelWidth maxSamples).sourceSampleCount
          else
            (buffer.buildLimitedEnvelope channelIndex visibleMinTime visibleMaxTime pixelWidth
              maxSamples).sourceSampleCount := by
  have hbase : (buffer.buildLimitedEnvelope channelIndex visibleMinTime visibleMaxTime pixelWidth
          maxSamples).sourceSampleCount
        = (buffer.window channelIndex visibleMinTime visibleMaxTime pixelWidth).length ∧
      CountedOnce (buffer.displayOf channelIndex)
        (buffer.buildLimitedEnvelope channelIndex visibleMinTime visibleMaxTime pixelWidth
          maxSamples).points
        (consideredSamples maxSamples
          (buffer.window channelIndex visibleMinTime visibleMaxTime pixelWidth)) := by
    unfold buildLimitedEnvelope window displayOf
    cases hchannel : buffer.channels[channelIndex]? with
    | none =>
      rw [List.suffix_nil.mp (consideredSamples_suffix maxSamples [])]
      exact ⟨rfl, .nil⟩
    | some channel =>
      have hchannelSorted := hsorted channel (List.mem_of_getElem? hchannel)
      dsimp only
      by_cases hwidth : pixelWidth = 0
      · rw [if_pos hwidth, if_pos hwidth, List.suffix_nil.mp (consideredSamples_suffix maxSamples [])]
        exact ⟨rfl, .nil⟩
      rw [if_neg hwidth, if_neg hwidth]
      by_cases hsamples : channel.samples = []
      · rw [hsamples]
        have hnone : visibleSamples ([] : List (WaveSample K)) (min visibleMinTime visibleMaxTime)
          (max visibleMinTime visibleMaxTime) = [] := rfl
        rw [hnone, List.suffix_nil.mp (consideredSamples_suffix maxSamples [])]
        exact ⟨rfl, .nil⟩
      rw [if_neg (by rw [List.isEmpty_iff]; exact hsamples)]
      by_cases hreversed : visibleMaxTime < visibleMinTime
      · rw [if_pos hreversed, min_eq_right hreversed.le, max_eq_left hreversed.le]
        exact channelEnvelope_counted buffer channel hchannelSorted _ _ _ _
      · have hle := not_lt.mp hreversed
        rw [if_neg hreversed, min_eq_left hle, max_eq_right hle]
        exact channelEnvelope_counted buffer channel hchannelSorted _ _ _ _
  obtain ⟨hcount, hcounted⟩ := hbase
  refine ⟨hcount, hcounted, ?_⟩
  rw [hcounted.sum_sampleCount, length_consideredSamples, hcount]

/-- One channel with a sample at each second from 0 on. -/
def rampBuffer (values : List ℚ) : DisplayBuffer ℚ where
  channels := [{
    spec := { ratio := 1, scale := 1, offset := 0 }
    samples := values.mapIdx fun i value => { time := i, value := value } }]
  displayFormula := .offsetThenScale

theorem rampBuffer_sorted : ∀ channel ∈ (rampBuffer [5, 2, 7]).channels,
    SortedByTime channel.samples := by
  simp only [rampBuffer, List.mem_singleton, SortedByTime]
  rintro channel rfl
  decide +kernel

theorem buildLimitedEnvelope_counts_three :
    (∀ channel ∈ (rampBuffer [5, 2, 7]).channels, SortedByTime channel.samples) ∧
      CountedOnce ((rampBuffer [5, 2, 7]).displayOf 0)
        ((rampBuffer [5, 2, 7]).buildLimitedEnvelope 0 0 2 1 0).points
        (consideredSamples 0 ((rampBuffer [5, 2, 7]).window 0 0 2 1)) ∧
      (((rampBuffer [5, 2, 7]).buildLimitedEnvelope 0 0 2 1 0).points.map
        (·.sampleCount)).sum = 3 := by
  have h := buildLimitedEnvelope_counts (rampBuffer [5, 2, 7]) 0 0 2 1 0 rampBuffer_sorted
  refine ⟨rampBuffer_sorted, h.2.1, ?_⟩
  rw [h.2.2]
  decide +kernel

/-- With a limit the counts add up to less than the window that is reported. -/
theorem limit_below_report :
    ¬ ∀ (buffer : DisplayBuffer ℚ) (channelIndex : ℕ) (visibleMinTime visibleMaxTime : ℚ)
      (pixelWidth maxSamples : ℕ),
      (∀ channel ∈ buffer.channels, SortedByTime channel.samples) →
        ((buffer.buildLimitedEnvelope channelIndex visibleMinTime visibleMaxTime pixelWidth
            maxSamples).points.map (·.sampleCount)).sum
          = (buffer.buildLimitedEnvelope channelIndex visibleMinTime visibleMaxTime pixelWidth
            maxSamples).sourceSampleCount := by
  intro h
  have hcounts := h (rampBuffer [5, 2, 7]) 0 0 2 1 1 rampBuffer_sorted
  revert hcounts
  decide +kernel

end DisplayBuffer

end ProtoScope.Plot
