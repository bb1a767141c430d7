/-
Drawing fewer points keeps every peak.

The samples that are drawn are those of the window with one neighbour on either side.  The parts
they are split into are consecutive and not empty, so an envelope counts each of them once; a part
contributes at most four positions, so the limit never cuts one off, and the extremes of the parts
contain those of the whole.
-/
import ProtoScope.Library.IncreasingList
import ProtoScope.Plot.WaveDownsample
import ProtoScope.Proofs.Plot.EnvelopeCounts

namespace ProtoScope.Plot

open ProtoScope.Library UniformBuckets

/-! ### The samples that are drawn -/

section Window

/-- A slice that takes one element more on either side, where there is one. -/
theorem slice_with_neighbours {α : Type} (before inside after : List α) :
    ((before ++ inside ++ after).drop (before.length - 1)).take
        ((if before.length + inside.length ≠ (before ++ inside ++ after).length then
            before.length + inside.length + 1 else before.length + inside.length) -
          (before.length - 1)) =
      before.getLast?.toList ++ inside ++ after.head?.toList := by
  have hright : ∀ middle : List α,
      (middle ++ after).take (if middle.length ≠ (middle ++ after).length then middle.length + 1
        else middle.length) = middle ++ after.head?.toList := by
    intro middle
    cases after with
    | nil => simp
    | cons first rest => simp [List.take_append]
  rcases List.eq_nil_or_concat before with rfl | ⟨init, last, rfl⟩
  · have hempty := hright inside
    simpa using hempty
  · have hone := hright (last :: inside)
    have hlist : init.concat last ++ inside ++ after = init ++ (last :: inside ++ after) := by simp
    have hlast : (init.concat last).getLast? = some last := by simp
    rw [hlist, List.length_concat, Nat.add_sub_cancel, List.drop_left, hlast]
    have hcount : (if init.length + 1 + inside.length ≠
          (init ++ (last :: inside ++ after)).length then init.length + 1 + inside.length + 1
          else init.length + 1 + inside.length) - init.length =
        if (last :: inside).length ≠ (last :: inside ++ after).length then
          (last :: inside).length + 1 else (last :: inside).length := by
      rw [List.length_append, List.length_cons]
      split <;> split <;> omega
    rw [hcount, hone]
    rfl

variable {K : Type} [LinearOrder K] {samples : List (WaveSample K)}

/-- The samples of a window with a neighbour on either side, where there is one. -/
def guardedWindow (samples : List (WaveSample K)) (minTime maxTime : K) : List (WaveSample K) :=
  (samples.filter fun sample => decide (sample.time < minTime)).getLast?.toList ++
    visibleSamples samples minTime maxTime ++
    (samples.filter fun sample => decide (maxTime < sample.time)).head?.toList

/-- **What is drawn for a window is the window with its neighbours, and the count is its own.** -/
theorem displayWindow_eq (hsorted : SortedByTime samples) (firstTime secondTime : K) :
    displayWindow samples firstTime secondTime =
      (guardedWindow samples (min firstTime secondTime) (max firstTime secondTime),
        (visibleSamples samples (min firstTime secondTime) (max firstTime secondTime)).length) := by
  have hmin : (if secondTime < firstTime then secondTime else firstTime) =
      min firstTime secondTime := by
    rw [min_comm]
    exact (min_def_lt secondTime firstTime).symm
  have hmax : (if secondTime < firstTime then firstTime else secondTime) =
      max firstTime secondTime := by
    rw [max_comm]
    exact (max_def_lt secondTime firstTime).symm
  unfold displayWindow
  dsimp only
  rw [hmin, hmax]
  have hle : min firstTime secondTime ≤ max firstTime secondTime := min_le_max
  generalize min firstTime secondTime = minTime at hle ⊢
  generalize max firstTime secondTime = maxTime at hle ⊢
  have hbefore : samples.take (lowerBoundByTime samples minTime) =
      samples.filter fun sample => decide (sample.time < minTime) :=
    PartitionPoint.take_find (hsorted.lower minTime)
  have hafter : samples.drop (upperBoundByTime samples maxTime) =
      samples.filter fun sample => decide (maxTime < sample.time) := by
    unfold upperBoundByTime
    rw [PartitionPoint.drop_find (hsorted.upper maxTime)]
    simp only [Bool.not_not]
  have hinside := slice_eq_visibleSamples hsorted minTime maxTime
  have hupper := hsorted.upper_le maxTime
  have horder : lowerBoundByTime samples minTime ≤ upperBoundByTime samples maxTime := by
    unfold lowerBoundByTime upperBoundByTime PartitionPoint.find
    refine PartitionPoint.search_mono (fun i hi => ?_) _ _ _
    cases hsample : samples[i]? with
    | none =>
      rw [hsample] at hi
      cases hi
    | some sample =>
      rw [hsample, Option.any_some, decide_eq_true_eq] at hi
      rw [Option.any_some, Bool.not_eq_true', decide_eq_false_iff_not, not_lt]
      exact hi.le.trans hle
  generalize lowerBoundByTime samples minTime = lower at hbefore hinside horder ⊢
  generalize upperBoundByTime samples maxTime = upper at hafter hinside hupper horder ⊢
  unfold guardedWindow
  rw [← hbefore, ← hafter, ← hinside]
  have hsplit : samples.take lower ++ (samples.drop lower).take (upper - lower) ++
      samples.drop upper = samples := by
    rw [List.append_assoc]
    have hrest : (samples.drop lower).take (upper - lower) ++ samples.drop upper =
        samples.drop lower := by
      have hupper' : samples.drop upper = (samples.drop lower).drop (upper - lower) := by
        rw [List.drop_drop, Nat.add_sub_cancel' horder]
      rw [hupper', List.take_append_drop]
    rw [hrest, List.take_append_drop]
  have hlower : (samples.take lower).length = lower := by
    rw [List.length_take]
    omega
  have hwidth : ((samples.drop lower).take (upper - lower)).length = upper - lower := by
    rw [List.length_take, List.length_drop]
    omega
  have hslice := slice_with_neighbours (samples.take lower)
    ((samples.drop lower).take (upper - lower)) (samples.drop upper)
  rw [hsplit, hlower, hwidth, Nat.add_sub_cancel' horder] at hslice
  have hfirst : (if lower ≠ 0 then lower - 1 else lower) = lower - 1 := by
    split <;> omega
  have hcount : (if lower < upper then upper - lower else 0) = upper - lower := by
    split <;> omega
  rw [hfirst, hcount, hslice, hwidth]

end Window

variable {K : Type} [Field K] [LinearOrder K]

/-! ### The envelope -/

section Envelope

theorem gathered_foldl (samples : List (WaveSample K)) {seen : List (WaveSample K)}
    {bucket : EnvelopeBucket K} (h : Gathered (fun value => value) seen bucket) :
    Gathered (fun value => value) (seen ++ samples)
      (samples.foldl (fun bucket sample => bucket.add sample.time sample.value) bucket) := by
  induction samples generalizing seen bucket with
  | nil =>
    rw [List.append_nil]
    exact h
  | cons sample samples ih =>
    have hnext := ih (h.add sample)
    rw [List.append_assoc] at hnext
    exact hnext

/-- The points of the first buckets count the samples before the border, one point each. -/
theorem countedOnce_buckets (window : List (WaveSample K)) {buckets : ℕ} (hpos : 0 < buckets)
    (hle : buckets ≤ window.length) {last : ℕ} (hlast : last ≤ buckets) :
    CountedOnce (fun value => value)
        ((List.range last).flatMap fun bucket =>
          (gather window (border window.length buckets bucket)
            (border window.length buckets (bucket + 1))).point)
        (window.take (border window.length buckets last)) ∧
      ((List.range last).flatMap fun bucket =>
        (gather window (border window.length buckets bucket)
          (border window.length buckets (bucket + 1))).point).length = last := by
  induction last with
  | zero =>
    rw [border_zero]
    exact ⟨CountedOnce.nil, rfl⟩
  | succ last ih =>
    obtain ⟨hcounted, hlength⟩ := ih (by omega)
    have hlt := border_lt hpos hle last
    have hend := @border_le window.length buckets hpos (last + 1) hlast
    rw [List.range_succ, List.flatMap_append, List.flatMap_singleton, List.length_append, hlength]
    generalize border window.length buckets last = bucketBegin at hcounted hlt ⊢
    generalize border window.length buckets (last + 1) = bucketEnd at hlt hend ⊢
    have hgathered : Gathered (fun value => value)
        ((window.drop bucketBegin).take (bucketEnd - bucketBegin))
        (gather window bucketBegin bucketEnd) :=
      gathered_foldl ((window.drop bucketBegin).take (bucketEnd - bucketBegin)) gathered_empty
    have htake : window.take bucketEnd =
        window.take bucketBegin ++ (window.drop bucketBegin).take (bucketEnd - bucketBegin) := by
      rw [← List.take_add, Nat.add_sub_cancel' hlt.le]
    have hone : (gather window bucketBegin bucketEnd).point.length = 1 := by
      unfold EnvelopeBucket.point
      rw [hgathered.count, if_pos]
      · rfl
      · rw [List.length_take, List.length_drop]
        omega
    rw [htake, hone]
    exact ⟨hcounted.append hgathered.counted, rfl⟩

end Envelope

/-! ### Peaks -/

section Peaks

variable {window : List (WaveSample K)}

omit [LinearOrder K] in
/-- What `extremeIndex` finds is in the bucket and no value of the bucket beats it. -/
theorem extremeIndex_spec (window : List (WaveSample K)) (beats : K → K → Bool)
    (hasymm : ∀ a b, beats a b = true → ¬ beats b a = true)
    (hneg : ∀ a b c, ¬ beats a b = true → ¬ beats b c = true → ¬ beats a c = true)
    {bucketBegin bucketEnd : ℕ} (hlt : bucketBegin < bucketEnd) :
    bucketBegin ≤ extremeIndex beats window bucketBegin bucketEnd ∧
      extremeIndex beats window bucketBegin bucketEnd < bucketEnd ∧
      ∀ index, bucketBegin ≤ index → index < bucketEnd →
        ¬ beats (windowSample window index).value
          (windowSample window (extremeIndex beats window bucketBegin bucketEnd)).value = true := by
  have hmem : ∀ index, index ∈ bucketBegin ::
      List.range' (bucketBegin + 1) (bucketEnd - (bucketBegin + 1)) ↔
        bucketBegin ≤ index ∧ index < bucketEnd := by
    intro index
    rw [List.mem_cons, List.mem_range'_1]
    omega
  obtain ⟨hinside, hbest⟩ := @Selection.foldl_pick_best ℕ
    (fun new old => beats (windowSample window new).value (windowSample window old).value)
    (fun _ _ => hasymm _ _) (fun _ _ _ => hneg _ _ _) bucketBegin
    (List.range' (bucketBegin + 1) (bucketEnd - (bucketBegin + 1)))
  obtain ⟨hle, hend⟩ := (hmem _).mp hinside
  exact ⟨hle, hend, fun index hindex hindexEnd => hbest index ((hmem index).mpr ⟨hindex, hindexEnd⟩)⟩

/-- The positions of a bucket are inside of it, and the ends and the extremes are among them. -/
structure Represents (window : List (WaveSample K)) (bucketBegin bucketEnd : ℕ)
    (positions : List ℕ) : Prop where
  first : bucketBegin ∈ positions
  last : bucketEnd - 1 ∈ positions
  least : ∃ position ∈ positions, ∀ index, bucketBegin ≤ index → index < bucketEnd →
    (windowSample window position).value ≤ (windowSample window index).value
  greatest : ∃ position ∈ positions, ∀ index, bucketBegin ≤ index → index < bucketEnd →
    (windowSample window index).value ≤ (windowSample window position).value

theorem representatives_spec {bucketBegin bucketEnd : ℕ} (hlt : bucketBegin < bucketEnd) :
    Represents window bucketBegin bucketEnd (representatives window bucketBegin bucketEnd) ∧
      (representatives window bucketBegin bucketEnd).Pairwise (· ≤ ·) ∧
      (representatives window bucketBegin bucketEnd).length = 4 ∧
      ∀ position ∈ representatives window bucketBegin bucketEnd,
        bucketBegin ≤ position ∧ position < bucketEnd := by
  have hleast := extremeIndex_spec window (fun new old => decide (new < old))
    (fun a b h => by simpa using (of_decide_eq_true h).le)
    (fun a b c hab hbc => by
      simp only [decide_eq_true_eq, not_lt] at hab hbc ⊢
      exact hbc.trans hab) hlt
  have hgreatest := extremeIndex_spec window (fun new old => decide (old < new))
    (fun a b h => by simpa using (of_decide_eq_true h).le)
    (fun a b c hab hbc => by
      simp only [decide_eq_true_eq, not_lt] at hab hbc ⊢
      exact hab.trans hbc) hlt
  unfold representatives
  generalize extremeIndex (fun new old => decide (new < old)) window bucketBegin bucketEnd =
    minIndex at hleast ⊢
  generalize extremeIndex (fun new old => decide (old < new)) window bucketBegin bucketEnd =
    maxIndex at hgreatest ⊢
  have hmem : ∀ position, position ∈
      [bucketBegin, minIndex, maxIndex, bucketEnd - 1].insertionSort (· ≤ ·) ↔
        position ∈ [bucketBegin, minIndex, maxIndex, bucketEnd - 1] :=
    fun position => (List.perm_insertionSort _ _).mem_iff
  refine ⟨⟨?_, ?_, ⟨minIndex, ?_, fun index hindex hend => ?_⟩,
    ⟨maxIndex, ?_, fun index hindex hend => ?_⟩⟩, ?_, ?_, fun position hposition => ?_⟩
  · exact (hmem _).mpr List.mem_cons_self
  · exact (hmem _).mpr (by simp)
  · exact (hmem _).mpr (by simp)
  · simpa using hleast.2.2 index hindex hend
  · exact (hmem _).mpr (by simp)
  · simpa using hgreatest.2.2 index hindex hend
  · exact List.pairwise_insertionSort _ _
  · rw [List.length_insertionSort]
    rfl
  · have hcases := (hmem _).mp hposition
    simp only [List.mem_cons, List.not_mem_nil, or_false] at hcases
    rcases hcases with rfl | rfl | rfl | rfl
    · exact ⟨Nat.le_refl _, hlt⟩
    · exact ⟨hleast.1, hleast.2.1⟩
    · exact ⟨hgreatest.1, hgreatest.2.1⟩
    · omega

/-- The positions of a bucket are put behind those before it, each once. -/
theorem pushRepresentatives_spec {pointLimit : ℕ} {indices : List ℕ} {trace : List ℕ}
    {previousIndex : Option ℕ} (hincreasing : trace.Pairwise (· < ·))
    (hordered : indices.Pairwise (· ≤ ·))
    (hprevious : ∀ index, previousIndex = some index → index ∈ trace)
    (habove : ∀ position ∈ trace, ∀ index ∈ indices, position < index ∨ previousIndex = some index)
    (hroom : trace.length + indices.length ≤ pointLimit) :
    (pushRepresentatives pointLimit trace previousIndex indices).Pairwise (· < ·) ∧
      (∀ position, position ∈ pushRepresentatives pointLimit trace previousIndex indices ↔
        position ∈ trace ∨ position ∈ indices) ∧
      (pushRepresentatives pointLimit trace previousIndex indices).length ≤
        trace.length + indices.length := by
  induction indices generalizing trace previousIndex with
  | nil =>
    refine ⟨hincreasing, fun position => ?_, Nat.le_refl _⟩
    simp [pushRepresentatives]
  | cons index rest ih =>
    obtain ⟨hfirst, hordered⟩ := List.pairwise_cons.mp hordered
    rw [List.length_cons] at hroom
    unfold pushRepresentatives
    by_cases hsame : previousIndex = some index
    · rw [if_pos hsame]
      obtain ⟨hresult, hmem, hlength⟩ := ih hincreasing hordered hprevious
        (fun position hposition other hother =>
          habove position hposition other (List.mem_cons_of_mem _ hother)) (by omega)
      refine ⟨hresult, fun position => ?_, ?_⟩
      · rw [hmem, List.mem_cons]
        constructor
        · rintro (hold | hnew)
          · exact Or.inl hold
          · exact Or.inr (Or.inr hnew)
        · rintro (hold | rfl | hnew)
          · exact Or.inl hold
          · exact Or.inl (hprevious _ hsame)
          · exact Or.inr hnew
      · rw [List.length_cons]
        omega
    · rw [if_neg hsame, if_neg (by omega)]
      have hlt : ∀ position ∈ trace, position < index := fun position hposition =>
        (habove position hposition index List.mem_cons_self).resolve_right hsame
      obtain ⟨hresult, hmem, hlength⟩ := @ih (trace ++ [index]) (some index)
        (IncreasingList.Increasing.snoc hincreasing hlt) hordered
        (fun other hother => by
          rw [← Option.some.inj hother]
          exact List.mem_append_right _ List.mem_cons_self)
        (fun position hposition other hother => by
          have hle := hfirst other hother
          rcases List.mem_append.mp hposition with hold | hnew
          · exact Or.inl ((hlt position hold).trans_le hle)
          · rw [List.mem_singleton.mp hnew]
            rcases Nat.lt_or_eq_of_le hle with hless | heq
            · exact Or.inl hless
            · exact Or.inr (congrArg some heq))
        (by
          rw [List.length_append, List.length_singleton]
          omega)
      rw [List.length_append, List.length_singleton] at hlength
      refine ⟨hresult, fun position => ?_, ?_⟩
      · rw [hmem, List.mem_append, List.mem_singleton, List.mem_cons, or_assoc]
      · rw [List.length_cons]
        omega

theorem Represents.mono {bucketBegin bucketEnd : ℕ} {positions more : List ℕ}
    (h : Represents window bucketBegin bucketEnd positions)
    (hmore : ∀ position ∈ positions, position ∈ more) :
    Represents window bucketBegin bucketEnd more := by
  obtain ⟨hfirst, hlast, ⟨least, hleast, hle⟩, ⟨greatest, hgreatest, hge⟩⟩ := h
  exact ⟨hmore _ hfirst, hmore _ hlast, ⟨least, hmore _ hleast, hle⟩,
    ⟨greatest, hmore _ hgreatest, hge⟩⟩

/-- The positions of the first buckets. -/
structure Peaks (window : List (WaveSample K)) (buckets last : ℕ) (positions : List ℕ) :
    Prop where
  increasing : positions.Pairwise (· < ·)
  below : ∀ position ∈ positions, position < border window.length buckets last
  few : positions.length ≤ 4 * last
  bucket : ∀ bucket < last,
    Represents window (border window.length buckets bucket)
      (border window.length buckets (bucket + 1)) positions

/-- **The limit never cuts a bucket off.** -/
theorem peaks_foldl {pointLimit buckets : ℕ} (hpos : 0 < buckets) (hle : buckets ≤ window.length)
    (hlimit : 4 * buckets ≤ pointLimit) {last : ℕ} (hlast : last ≤ buckets) :
    Peaks window buckets last
      ((List.range last).foldl
        (fun trace bucket =>
          if trace.length < pointLimit ∧
              border window.length buckets bucket <
                border window.length buckets (bucket + 1) then
            pushRepresentatives pointLimit trace none
              (representatives window (border window.length buckets bucket)
                (border window.length buckets (bucket + 1)))
          else trace)
        []) := by
  induction last with
  | zero =>
    exact ⟨List.Pairwise.nil, fun _ h => (List.not_mem_nil h).elim, Nat.le_refl _,
      fun _ h => (Nat.not_lt_zero _ h).elim⟩
  | succ last ih =>
    obtain ⟨hincreasing, hbelow, hfew, hbucket⟩ := ih (by omega)
    have hlt := border_lt hpos hle last
    rw [List.range_succ, List.foldl_append, List.foldl_cons, List.foldl_nil]
    generalize (List.range last).foldl _ [] = trace at hincreasing hbelow hfew hbucket ⊢
    have hprevious : ∀ index, (none : Option ℕ) = some index → index ∈ trace := by
      intro index h
      cases h
    rw [if_pos ⟨by omega, hlt⟩]
    obtain ⟨hrepresents, hordered, hfour, hinside⟩ := @representatives_spec K _ _ window _ _ hlt
    obtain ⟨hresult, hmem, hlength⟩ := pushRepresentatives_spec hincreasing hordered hprevious
      (fun position hposition index hindex =>
        Or.inl ((hbelow position hposition).trans_le (hinside index hindex).1))
      (show _ ≤ pointLimit by
        rw [hfour]
        omega)
    refine ⟨hresult, fun position hposition => ?_, ?_, fun bucket hless => ?_⟩
    · rcases (hmem position).mp hposition with hold | hnew
      · exact (hbelow position hold).trans hlt
      · exact (hinside position hnew).2
    · rw [hfour] at hlength
      omega
    · rcases Nat.lt_succ_iff_lt_or_eq.mp hless with hold | rfl
      · exact (hbucket bucket hold).mono fun position hposition =>
          (hmem position).mpr (Or.inl hposition)
      · exact hrepresents.mono fun position hposition =>
          (hmem position).mpr (Or.inr hposition)

end Peaks

/-! ### What is drawn -/

/-- **A trace of a window that does not fit.**  Its positions increase, the ends of the window and
of every bucket are among them, and one of the least and one of the greatest of its values. -/
structure PeakTrace (window : List (WaveSample K)) (pointLimit : ℕ) (positions : List ℕ) :
    Prop where
  increasing : positions.Pairwise (· < ·)
  inside : ∀ position ∈ positions, position < window.length
  few : positions.length ≤ pointLimit
  first : 0 ∈ positions
  last : window.length - 1 ∈ positions
  least : ∃ position ∈ positions, ∀ index < window.length,
    (windowSample window position).value ≤ (windowSample window index).value
  greatest : ∃ position ∈ positions, ∀ index < window.length,
    (windowSample window index).value ≤ (windowSample window position).value
  bucket : ∀ bucket < pointLimit / 4,
    Represents window (border window.length (pointLimit / 4) bucket)
      (border window.length (pointLimit / 4) (bucket + 1)) positions

/-- The buckets of a trace reach over the whole window. -/
theorem peakTrace_peakPositions {window : List (WaveSample K)} {pointLimit : ℕ}
    (hlimit : 4 ≤ pointLimit) (hlarge : pointLimit < window.length) :
    PeakTrace window pointLimit
      (peakPositions window pointLimit (min window.length (max 1 (pointLimit / 4)))) := by
  have hbuckets : min window.length (max 1 (pointLimit / 4)) = pointLimit / 4 := by omega
  rw [hbuckets]
  have hpos : 0 < pointLimit / 4 := by omega
  have hfour : 4 * (pointLimit / 4) ≤ pointLimit := by omega
  have hle : pointLimit / 4 ≤ window.length := by omega
  obtain ⟨hincreasing, hbelow, hfew, hbucket⟩ :=
    peaks_foldl hpos hle hfour (Nat.le_refl (pointLimit / 4))
  rw [border_last hpos] at hbelow
  have hcovered : ∀ index < window.length, ∃ bucket < pointLimit / 4,
      border window.length (pointLimit / 4) bucket ≤ index ∧
        index < border window.length (pointLimit / 4) (bucket + 1) := by
    intro index hindex
    exact exists_bucket (by rw [border_last hpos]; exact hindex)
  have hwindow : 0 < window.length := by omega
  refine ⟨hincreasing, hbelow, hfew.trans hfour, ?_, ?_, ?_, ?_, hbucket⟩
  · have hfirst := (hbucket 0 hpos).first
    rw [border_zero] at hfirst
    exact hfirst
  · have hlast := (hbucket (pointLimit / 4 - 1) (by omega)).last
    rw [Nat.sub_add_cancel hpos, border_last hpos] at hlast
    exact hlast
  · obtain ⟨-, hinside, hleast⟩ := extremeIndex_spec window (fun new old => decide (new < old))
      (fun a b h => by simpa using (of_decide_eq_true h).le)
      (fun a b c hab hbc => by
        simp only [decide_eq_true_eq, not_lt] at hab hbc ⊢
        exact hbc.trans hab) hwindow
    obtain ⟨bucket, hless, hbegin, hend⟩ := hcovered _ hinside
    obtain ⟨position, hposition, hvalue⟩ := (hbucket bucket hless).least
    refine ⟨position, hposition, fun index hindex => ?_⟩
    exact (hvalue _ hbegin hend).trans (by simpa using hleast index (Nat.zero_le _) hindex)
  · obtain ⟨-, hinside, hgreatest⟩ := extremeIndex_spec window (fun new old => decide (old < new))
      (fun a b h => by simpa using (of_decide_eq_true h).le)
      (fun a b c hab hbc => by
        simp only [decide_eq_true_eq, not_lt] at hab hbc ⊢
        exact hab.trans hbc) hwindow
    obtain ⟨bucket, hless, hbegin, hend⟩ := hcovered _ hinside
    obtain ⟨position, hposition, hvalue⟩ := (hbucket bucket hless).greatest
    refine ⟨position, hposition, fun index hindex => ?_⟩
    exact le_trans (by simpa using hgreatest index (Nat.zero_le _) hindex)
      (hvalue _ hbegin hend)

variable {samples : List (WaveSample K)}

omit [Field K] in
theorem guardedWindow_nil (minTime maxTime : K) :
    guardedWindow ([] : List (WaveSample K)) minTime maxTime = [] :=
  rfl

/-- **Drawing fewer points keeps every peak of what is drawn, and both functions report how many
samples are in the window.** -/
theorem peaks_kept {samples : List (WaveSample K)} (hsorted : SortedByTime samples)
    (firstTime secondTime : K) (pointLimit : ℕ) :
    (4 ≤ pointLimit →
      (buildPeakDetectDownsample samples firstTime secondTime pointLimit).2 =
          (visibleSamples samples (min firstTime secondTime) (max firstTime secondTime)).length ∧
        ((guardedWindow samples (min firstTime secondTime) (max firstTime secondTime)).length ≤
            pointLimit →
          (buildPeakDetectDownsample samples firstTime secondTime pointLimit).1 =
            guardedWindow samples (min firstTime secondTime) (max firstTime secondTime)) ∧
        (pointLimit <
            (guardedWindow samples (min firstTime secondTime) (max firstTime secondTime)).length →
          ∃ positions,
            PeakTrace (guardedWindow samples (min firstTime secondTime) (max firstTime secondTime))
              pointLimit positions ∧
            (buildPeakDetectDownsample samples firstTime secondTime pointLimit).1 =
              positions.map (windowSample
                (guardedWindow samples (min firstTime secondTime) (max firstTime secondTime))))) ∧
    (1 ≤ pointLimit →
      (buildDisplayEnvelope samples firstTime secondTime pointLimit).2 =
          (visibleSamples samples (min firstTime secondTime) (max firstTime secondTime)).length ∧
        (buildDisplayEnvelope samples firstTime secondTime pointLimit).1.length = min pointLimit
          (guardedWindow samples (min firstTime secondTime) (max firstTime secondTime)).length ∧
        CountedOnce (fun value => value)
          (buildDisplayEnvelope samples firstTime secondTime pointLimit).1
          (guardedWindow samples (min firstTime secondTime) (max firstTime secondTime)) ∧
        ((buildDisplayEnvelope samples firstTime secondTime pointLimit).1.map (·.sampleCount)).sum =
          (guardedWindow samples (min firstTime secondTime) (max firstTime secondTime)).length) := by
  constructor
  · intro hlimit
    unfold buildPeakDetectDownsample
    cases samples with
    | nil =>
      refine ⟨rfl, fun _ => rfl, fun hlarge => ?_⟩
      rw [guardedWindow_nil] at hlarge
      exact (Nat.not_lt_zero _ hlarge).elim
    | cons sample samples =>
      rw [if_neg (by simp; omega), displayWindow_eq hsorted]
      dsimp only
      split
      · rename_i hfits
        exact ⟨rfl, fun _ => rfl, fun hlarge => absurd hfits (Nat.not_le.mpr hlarge)⟩
      · rename_i hlarge
        rw [Nat.not_le] at hlarge
        exact ⟨rfl, fun hfits => absurd hfits (Nat.not_le.mpr hlarge),
          fun _ => ⟨_, peakTrace_peakPositions hlimit hlarge, rfl⟩⟩
  · intro hlimit
    -- the number of samples follows from each being counted once
    suffices hspec : _ ∧ _ ∧ _ from ⟨hspec.1, hspec.2.1, hspec.2.2, hspec.2.2.sum_sampleCount⟩
    unfold buildDisplayEnvelope
    cases samples with
    | nil => exact ⟨rfl, (Nat.min_zero _).symm, CountedOnce.nil⟩
    | cons sample samples =>
      rw [if_neg (by simp; omega), displayWindow_eq hsorted]
      dsimp only
      generalize guardedWindow (sample :: samples) (min firstTime secondTime)
        (max firstTime secondTime) = window
      rcases Nat.eq_zero_or_pos window.length with hempty | hpos
      · rw [List.eq_nil_of_length_eq_zero hempty]
        exact ⟨rfl, (Nat.min_zero _).symm ▸ rfl, by
          rw [List.length_nil, Nat.min_zero]
          exact CountedOnce.nil⟩
      · have hbuckets : 0 < min pointLimit window.length := by omega
        obtain ⟨hcounted, hlength⟩ :=
          countedOnce_buckets window hbuckets (Nat.min_le_right _ _) (Nat.le_refl _)
        rw [UniformBuckets.border_last hbuckets, List.take_length] at hcounted
        exact ⟨rfl, hlength, hcounted⟩

/-- Five samples with a limit of four: the ends and the peak stay. -/
theorem peaks_kept_five :
    (buildPeakDetectDownsample
      ([⟨0, 1⟩, ⟨1, 1⟩, ⟨2, 9⟩, ⟨3, 1⟩, ⟨4, 2⟩] : List (WaveSample ℚ)) 0 4 4).2 = 5 := by
  have hsorted : SortedByTime
      ([⟨0, 1⟩, ⟨1, 1⟩, ⟨2, 9⟩, ⟨3, 1⟩, ⟨4, 2⟩] : List (WaveSample ℚ)) := by
    unfold SortedByTime
    decide +kernel
  rw [((peaks_kept hsorted 0 4 4).1 (by decide)).1]
  decide +kernel

end ProtoScope.Plot
