/-
What is drawn of a range.

Downsampling gives the positions to draw in increasing order, inside the range and not more
than the budget.  The uniform buckets tile the range, so they never lose its ends, and as
every bucket keeps its extremes, the extremes of the range are among what is kept.  The
stable buckets keep positions of the samples in view and of one neighbour on each side;
their order is settled at the end, by sorting.
-/
import ProtoScope.Library.IncreasingList
import ProtoScope.Proofs.Plot.QueryViews

namespace ProtoScope.Plot

open ProtoScope.Library
open ProtoScope.Library.IncreasingList
open WaveScalar

namespace WaveQueryView

variable {α : Type} [WaveArith α] {view : WaveQueryView α}

/-! ### Pushing positions in order -/

theorem pushDistinct_increasing {result : List ℕ} (h : Increasing result) {index : ℕ}
    (hle : ∀ i ∈ result, i ≤ index) : Increasing (pushDistinct result index) := by
  unfold pushDistinct
  split
  · exact h
  · rename_i hlast
    apply h.snoc
    intro i hi
    refine lt_of_le_of_ne (hle i hi) ?_
    rintro rfl
    cases hend : result.getLast? with
    | none =>
      rw [List.getLast?_eq_none_iff.mp hend] at hi
      cases hi
    | some last =>
      have hmem : last ∈ result := List.mem_of_getLast? hend
      have heq : last = i := Nat.le_antisymm (hle last hmem) (h.le_last hend hi)
      exact hlast (hend.trans (congrArg some heq))

theorem mem_pushDistinct {result : List ℕ} {index i : ℕ} :
    i ∈ pushDistinct result index ↔ i ∈ result ∨ i = index := by
  unfold pushDistinct
  split
  · rename_i hlast
    have hmem : index ∈ result := List.mem_of_getLast? hlast
    constructor
    · exact .inl
    · rintro (hi | rfl)
      · exact hi
      · exact hmem
  · simp

theorem length_pushDistinct (result : List ℕ) (index : ℕ) :
    (pushDistinct result index).length ≤ result.length + 1 := by
  unfold pushDistinct
  split
  · omega
  · simp

/-- What pushing a sorted list behind smaller positions gives. -/
structure Pushed (result indices after : List ℕ) : Prop where
  increasing : Increasing after
  mem : ∀ i, i ∈ after ↔ i ∈ result ∨ i ∈ indices
  length : after.length ≤ result.length + indices.length

theorem foldl_pushDistinct :
    ∀ (indices result : List ℕ), Increasing result → indices.Pairwise (· ≤ ·) →
      (∀ i ∈ result, ∀ j ∈ indices, i ≤ j) →
      Pushed result indices (indices.foldl pushDistinct result) := by
  intro indices
  induction indices with
  | nil =>
    intro result h _ _
    exact ⟨h, by simp, Nat.le_refl _⟩
  | cons index indices ih =>
    intro result h hsorted hle
    obtain ⟨hfirst, hsorted⟩ := List.pairwise_cons.mp hsorted
    have hbelow : ∀ i ∈ result, i ≤ index := fun i hi => hle i hi index List.mem_cons_self
    obtain ⟨hincreasing, hmem, hlength⟩ := ih (pushDistinct result index)
      (pushDistinct_increasing h hbelow) hsorted (by
        intro i hi j hj
        rcases mem_pushDistinct.mp hi with hi | rfl
        · exact hle i hi j (List.mem_cons_of_mem _ hj)
        · exact hfirst j hj)
    refine ⟨hincreasing, ?_, ?_⟩
    · intro i
      rw [List.foldl_cons, hmem, mem_pushDistinct, List.mem_cons, or_assoc]
    · have := length_pushDistinct result index
      rw [List.foldl_cons, List.length_cons]
      omega

/-! ### Uniform buckets -/

section Uniform

/-- A position whose value no finite value of the range beats is among the result, seen
from each sample. -/
def Covers (better : α → α → Bool) (view : WaveQueryView α) (begin fin : ℕ) (result : List ℕ) :
    Prop :=
  ∀ i, begin ≤ i → i < fin → isFinite (view.rawSample i).value = true →
    ∃ j ∈ result, isFinite (view.rawSample j).value = true ∧
      better (view.rawSample i).value (view.rawSample j).value = false

/-- What the buckets up to `left` have given. -/
structure Drawn (view : WaveQueryView α) (begin left buckets : ℕ) (result : List ℕ) : Prop where
  increasing : Increasing result
  inside : ∀ i ∈ result, begin ≤ i ∧ i < left
  length : result.length ≤ 4 * buckets
  ends : begin < left → begin ∈ result ∧ left - 1 ∈ result
  least : Covers lt view begin left result
  greatest : Covers (fun a b => lt b a) view begin left result

theorem Covers.extend {better : α → α → Bool} {begin left right index : ℕ}
    {result after : List ℕ} (h : Covers better view begin left result)
    (hbest : BestOf better view left right index) (hmem : ∀ i ∈ result, i ∈ after)
    (hindex : index ∈ after) : Covers better view begin right after := by
  intro i hi hright hfinite
  rcases Nat.lt_or_ge i left with hlt | hge
  · obtain ⟨j, hj, hfacts⟩ := h i hi hlt hfinite
    exact ⟨j, hmem j hj, hfacts⟩
  · exact ⟨index, hindex, hbest i hge hright hfinite⟩

omit [WaveArith α] in
/-- The positions a bucket adds: sorted, and the four of its summary. -/
theorem sorted_map_localIndex (indices : List ℕ) :
    ((sorted indices).map view.localIndex).Pairwise (· ≤ ·) ∧
      ∀ i, i ∈ (sorted indices).map view.localIndex ↔ ∃ j ∈ indices, view.localIndex j = i := by
  constructor
  · rw [List.pairwise_map]
    apply (List.pairwise_insertionSort (· ≤ ·) indices).imp
    intro a b hle
    exact Nat.sub_le_sub_right hle _
  · intro i
    rw [List.mem_map]
    unfold sorted
    simp only [List.mem_insertionSort]

theorem Drawn.bucket {begin left right buckets : ℕ} {result : List ℕ}
    (h : Drawn view begin left buckets result) (hbegin : begin ≤ left) (hlt : left < right)
    {s : WaveSummary α} (hs : Summarized view left right s) :
    Drawn view begin right (buckets + 1)
      (((sorted [s.first, s.minimum, s.maximum, s.last]).map view.localIndex).foldl pushDistinct
        result) := by
  obtain ⟨hsorted, hmem⟩ := @sorted_map_localIndex _ view [s.first, s.minimum, s.maximum, s.last]
  have hin : ∀ i ∈ (sorted [s.first, s.minimum, s.maximum, s.last]).map view.localIndex,
      left ≤ i ∧ i < right := by
    intro i hi
    obtain ⟨j, hj, rfl⟩ := (hmem i).mp hi
    simp only [List.mem_cons, List.not_mem_nil, or_false] at hj
    rcases hj with rfl | rfl | rfl | rfl
    · rw [hs.first]
      omega
    · exact hs.minimum
    · exact hs.maximum
    · rw [hs.last]
      omega
  obtain ⟨hincreasing, hpushed, hlength⟩ := foldl_pushDistinct _ result h.increasing hsorted (by
    intro i hi j hj
    have hi' := h.inside i hi
    have hj' := hin j hj
    omega)
  have hnew : ∀ j ∈ [s.first, s.minimum, s.maximum, s.last], view.localIndex j ∈
      ((sorted [s.first, s.minimum, s.maximum, s.last]).map view.localIndex).foldl pushDistinct
        result := by
    intro j hj
    exact (hpushed _).mpr (.inr ((hmem _).mpr ⟨j, hj, rfl⟩))
  have hold : ∀ i ∈ result, i ∈
      ((sorted [s.first, s.minimum, s.maximum, s.last]).map view.localIndex).foldl pushDistinct
        result := fun i hi => (hpushed i).mpr (.inl hi)
  refine ⟨hincreasing, ?_, ?_, ?_, ?_, ?_⟩
  · intro i hi
    rcases (hpushed i).mp hi with hi | hi
    · have := h.inside i hi
      omega
    · have := hin i hi
      omega
  · have hfour : ((sorted [s.first, s.minimum, s.maximum, s.last]).map view.localIndex).length =
        4 := by
      rw [List.length_map]
      exact List.length_insertionSort _ _
    have := h.length
    omega
  · intro _
    have hlast : right - 1 ∈ ((sorted [s.first, s.minimum, s.maximum, s.last]).map
        view.localIndex).foldl pushDistinct result := by
      rw [← hs.last]
      exact hnew _ (by simp)
    refine ⟨?_, hlast⟩
    rcases Nat.eq_or_lt_of_le hbegin with rfl | hbefore
    · have hfirst := hnew s.first (by simp)
      rw [hs.first] at hfirst
      exact hfirst
    · exact hold _ (h.ends hbefore).1
  · exact h.least.extend hs.least hold (hnew _ (by simp))
  · exact h.greatest.extend hs.greatest hold (hnew _ (by simp))

theorem clampIndex_bounds (value : ℕ) {lo hi : ℕ} (h : lo ≤ hi) :
    lo ≤ clampIndex value lo hi ∧ clampIndex value lo hi ≤ hi := by
  unfold clampIndex
  split
  · exact ⟨Nat.le_refl _, h⟩
  · split
    · exact ⟨h, Nat.le_refl _⟩
    · omega

variable [LawfulWaveScalar α]

/-- **One bucket** takes the samples up to a position between its start and the end. -/
theorem legacyBucket_drawn (hsync : view.channel.Synced) {minTime maxTime : α}
    {begin fin buckets bucket : ℕ} {state : ℕ × List ℕ}
    (h : Drawn view begin state.1 bucket state.2) (hbegin : begin ≤ state.1) (hfin : state.1 ≤ fin)
    (hsize : fin ≤ view.size) :
    Drawn view begin (view.legacyBucket minTime maxTime fin buckets state bucket).1 (bucket + 1)
        (view.legacyBucket minTime maxTime fin buckets state bucket).2 ∧
      state.1 ≤ (view.legacyBucket minTime maxTime fin buckets state bucket).1 ∧
      (view.legacyBucket minTime maxTime fin buckets state bucket).1 ≤ fin ∧
      (buckets ≤ bucket + 1 →
        (view.legacyBucket minTime maxTime fin buckets state bucket).1 = fin) := by
  unfold legacyBucket
  dsimp only
  generalize hright : (if bucket + 1 < buckets then _ else fin : ℕ) = right
  have hbounds : state.1 ≤ right ∧ right ≤ fin := by
    rw [← hright]
    split
    · exact clampIndex_bounds _ hfin
    · exact ⟨hfin, Nat.le_refl _⟩
  refine ⟨?_, hbounds.1, hbounds.2, ?_⟩
  · rcases Nat.eq_or_lt_of_le hbounds.1 with heq | hlt
    · rw [if_pos (by rw [heq]; exact summary_count_empty hsync (hbounds.2.trans hsize)), ← heq]
      exact { h with length := h.length.trans (by omega) }
    · have hs := summary_summarized hsync hlt (hbounds.2.trans hsize)
      rw [if_neg hs.count]
      exact h.bucket hbegin hlt hs
  · intro hlast
    rw [← hright, if_neg (by omega)]

/-- **All buckets tile the range.** -/
theorem legacyBuckets_drawn (hsync : view.channel.Synced) {minTime maxTime : α} {begin fin : ℕ}
    (hle : begin ≤ fin) (hsize : fin ≤ view.size) (buckets : ℕ) :
    ∀ n ≤ buckets, let state :=
        (List.range n).foldl (view.legacyBucket minTime maxTime fin buckets) (begin, [])
      Drawn view begin state.1 n state.2 ∧ begin ≤ state.1 ∧ state.1 ≤ fin ∧
        (0 < n → buckets ≤ n → state.1 = fin) := by
  intro n
  induction n with
  | zero =>
    intro _
    refine ⟨⟨List.Pairwise.nil, by simp, Nat.zero_le _, fun hlt => absurd hlt (Nat.lt_irrefl _),
      ?_, ?_⟩, Nat.le_refl _, hle, fun hlt => absurd hlt (Nat.lt_irrefl _)⟩
    · intro i hi hlt
      exact absurd hlt (Nat.not_lt.mpr hi)
    · intro i hi hlt
      exact absurd hlt (Nat.not_lt.mpr hi)
  | succ n ih =>
    intro hn
    obtain ⟨hdrawn, hbegin, hfin, -⟩ := ih (by omega)
    dsimp only
    rw [List.range_succ, List.foldl_append, List.foldl_cons, List.foldl_nil]
    obtain ⟨hnext, hleft, hright, hlast⟩ :=
      @legacyBucket_drawn _ _ view _ hsync minTime maxTime begin fin buckets n _ hdrawn hbegin hfin
        hsize
    exact ⟨hnext, hbegin.trans hleft, hright, fun _ => hlast⟩

omit [LawfulWaveScalar α] in
/-- What is best for every sample is best for all at once. -/
theorem Covers.best {better : α → α → Bool} {begin fin index : ℕ} {result : List ℕ}
    (hmiddle : ∀ {a b c : α}, isFinite b = true → better a c = true →
      better a b = true ∨ better b c = true)
    (h : Covers better view begin fin result)
    (hindex : begin ≤ index ∧ index < fin) (hbest : BestOf better view begin fin index)
    (hsome : begin ∈ result) : ∃ j ∈ result, BestOf better view begin fin j := by
  by_cases hfinite : isFinite (view.rawSample index).value = true
  · obtain ⟨j, hj, hjfinite, hnot⟩ := h index hindex.1 hindex.2 hfinite
    refine ⟨j, hj, ?_⟩
    intro i hi hlt hifinite
    refine ⟨hjfinite, ?_⟩
    rw [Bool.eq_false_iff]
    intro hc
    rcases hmiddle hfinite hc with hc | hc
    · rw [(hbest i hi hlt hifinite).2] at hc
      cases hc
    · rw [hnot] at hc
      cases hc
  · refine ⟨begin, hsome, ?_⟩
    intro i hi hlt hifinite
    exact absurd (hbest i hi hlt hifinite).1 hfinite

/-- What uniform downsampling keeps of a range that is not empty. -/
structure KeepsExtremes (view : WaveQueryView α) (begin fin : ℕ) (result : List ℕ) : Prop where
  first : begin ∈ result
  last : fin - 1 ∈ result
  least : ∃ j ∈ result, BestOf lt view begin fin j
  greatest : ∃ j ∈ result, BestOf (fun a b => lt b a) view begin fin j

theorem KeepsExtremes.of_covers (hsync : view.channel.Synced) {begin fin : ℕ} {result : List ℕ}
    (hlt : begin < fin) (hsize : fin ≤ view.size) (hfirst : begin ∈ result)
    (hlast : fin - 1 ∈ result) (hleast : Covers lt view begin fin result)
    (hgreatest : Covers (fun a b => lt b a) view begin fin result) :
    KeepsExtremes view begin fin result := by
  have hs := summary_summarized hsync hlt hsize
  refine ⟨hfirst, hlast, ?_, ?_⟩
  · exact hleast.best LawfulWaveScalar.lt_or_lt hs.minimum hs.least hfirst
  · refine hgreatest.best ?_ hs.maximum hs.greatest hfirst
    intro a b c hb hac
    exact (LawfulWaveScalar.lt_or_lt hb hac).symm

end Uniform

/-! ### Stable buckets -/

section Stable

/-- The eight positions of the tail of the newest sample. -/
def tailIndices (view : WaveQueryView α) (bucketBegin : ℕ) : List ℕ :=
  let latest := view.size - 1
  let tailBegin := max bucketBegin (if 6 < latest then latest - 6 else 0)
  let tail := List.range' tailBegin (latest + 1 - tailBegin)
  bucketBegin :: tail ++ List.replicate (7 - tail.length) latest

omit [WaveArith α] in
theorem length_tailIndices (bucketBegin : ℕ) : (view.tailIndices bucketBegin).length = 8 := by
  unfold tailIndices
  dsimp only
  rw [List.length_append, List.length_cons, List.length_replicate, List.length_range']
  split <;> omega

omit [WaveArith α] in
theorem mem_tailIndices {bucketBegin i : ℕ} (hle : bucketBegin ≤ view.size - 1)
    (hi : i ∈ view.tailIndices bucketBegin) : bucketBegin ≤ i ∧ i ≤ view.size - 1 := by
  unfold tailIndices at hi
  simp only [List.mem_append, List.mem_cons, List.mem_range'_1, List.mem_replicate] at hi
  omega

/-- The eight positions of a summary. -/
def summaryIndices (view : WaveQueryView α) (s : WaveSummary α) : List ℕ :=
  [s.first, s.last, s.minimum, s.maximum,
    if lt zero s.rise then s.riseBefore else s.first,
    if lt zero s.rise then s.riseBefore + 1 else s.first,
    if lt zero s.fall then s.fallBefore else s.first,
    if lt zero s.fall then s.fallBefore + 1 else s.first].map (· - view.channel.sampleIndexOffset)

theorem mem_summaryIndices {left right i : ℕ} {s : WaveSummary α}
    (hs : Summarized view left right s) (hlt : left < right) (hi : i ∈ view.summaryIndices s) :
    left ≤ i ∧ i < right := by
  have hfirst := hs.first
  have hlast := hs.last
  have hminimum := hs.minimum
  have hmaximum := hs.maximum
  unfold localIndex at hfirst hlast hminimum hmaximum
  unfold summaryIndices at hi
  simp only [List.map_cons, List.map_nil, List.mem_cons, List.not_mem_nil, or_false] at hi
  have hjump : ∀ {strength : α} {before : ℕ},
      (lt zero strength = true → left ≤ view.localIndex before ∧
        view.localIndex before + 1 < right ∧
        view.localIndex (before + 1) = view.localIndex before + 1) →
      (i = (if lt zero strength then before else s.first) - view.channel.sampleIndexOffset ∨
        i = (if lt zero strength then before + 1 else s.first) - view.channel.sampleIndexOffset) →
      left ≤ i ∧ i < right := by
    intro strength before hinside hi
    by_cases hpositive : lt zero strength = true
    · have := hinside hpositive
      unfold localIndex at this
      rw [if_pos hpositive, if_pos hpositive] at hi
      omega
    · rw [if_neg hpositive, if_neg hpositive] at hi
      omega
  rcases hi with hi | hi | hi | hi | hi | hi | hi | hi
  · omega
  · omega
  · omega
  · omega
  · exact hjump hs.rise (.inl hi)
  · exact hjump hs.rise (.inr hi)
  · exact hjump hs.fall (.inl hi)
  · exact hjump hs.fall (.inr hi)

theorem addSummary_eq {left right : ℕ} {s : WaveSummary α} (hs : Summarized view left right s)
    (result : List ℕ) : view.addSummary result s = view.appendSorted result (view.summaryIndices s) :=
  if_neg hs.count

/-- All positions lie in the range. -/
def Inside (begin fin : ℕ) (result : List ℕ) : Prop := ∀ i ∈ result, begin ≤ i ∧ i < fin

variable {begin fin : ℕ} {result : List ℕ}

omit [WaveArith α] in
theorem Inside.addLocal (h : Inside begin fin result) {index : ℕ} (hle : begin ≤ index)
    (hlt : index < fin) : Inside begin fin (view.addLocal result index) := by
  unfold WaveQueryView.addLocal
  split
  · intro i hi
    rcases List.mem_append.mp hi with hi | hi
    · exact h i hi
    · rw [List.mem_singleton] at hi
      omega
  · exact h

omit [WaveArith α] in
theorem Inside.appendSorted (h : Inside begin fin result) {indices : List ℕ}
    (hin : Inside begin fin indices) : Inside begin fin (view.appendSorted result indices) := by
  have hsorted : Inside begin fin (sorted indices) := by
    intro i hi
    exact hin i (List.mem_insertionSort _ |>.mp hi)
  clear hin
  unfold WaveQueryView.appendSorted
  generalize sorted indices = indices at hsorted
  induction indices generalizing result with
  | nil => exact h
  | cons index indices ih =>
    obtain ⟨hfirst, hrest⟩ := List.forall_mem_cons.mp hsorted
    rw [List.foldl_cons]
    refine ih ?_ hrest
    split
    · exact h
    · split
      · intro i hi
        rw [List.mem_singleton] at hi
        exact hi ▸ hfirst
      · split
        · intro i hi
          rcases List.mem_append.mp hi with hi | hi
          · exact h i hi
          · rw [List.mem_singleton] at hi
            exact hi ▸ hfirst
        · exact h

theorem Inside.addSummary (h : Inside begin fin result) {left right : ℕ} (hbegin : begin ≤ left)
    (hlt : left < right) (hfin : right ≤ fin) {s : WaveSummary α}
    (hs : Summarized view left right s) : Inside begin fin (view.addSummary result s) := by
  rw [addSummary_eq hs]
  apply h.appendSorted
  intro i hi
  have := mem_summaryIndices hs hlt hi
  omega

omit [WaveArith α] in
theorem Inside.addLatestTail (h : Inside begin fin result) {bucketBegin : ℕ}
    (hbegin : begin ≤ bucketBegin) (hlatest : bucketBegin ≤ view.size - 1)
    (hfin : view.size - 1 < fin) : Inside begin fin (view.addLatestTail result bucketBegin) := by
  apply Inside.appendSorted h
  intro i hi
  have := mem_tailIndices hlatest hi
  omega

omit [WaveArith α] in
theorem finish_increasing (budget : ℕ) (result : List ℕ) : Increasing (finish budget result) :=
  (increasing_dedup_sort result).sublist (List.take_sublist _ _)

omit [WaveArith α] in
theorem Inside.finish (h : Inside begin fin result) (budget : ℕ) :
    Inside begin fin (finish budget result) := by
  intro i hi
  have hmem := List.mem_dedup.mp (List.mem_of_mem_take hi)
  exact h i (List.mem_insertionSort _ |>.mp hmem)

omit [WaveArith α] in
theorem length_finish_le (budget : ℕ) (result : List ℕ) :
    (finish budget result).length ≤ budget := by
  unfold WaveQueryView.finish
  rw [List.length_take]
  exact Nat.min_le_left _ _

theorem Inside.addJump (h : Inside begin fin result) {budget : ℕ} {jump : α × ℕ}
    (hjump : lt zero jump.1 = true → begin ≤ view.localIndex jump.2 ∧
      view.localIndex jump.2 + 1 < fin ∧ view.localIndex (jump.2 + 1) = view.localIndex jump.2 + 1) :
    Inside begin fin (view.addJump budget result jump) := by
  unfold WaveQueryView.addJump
  split
  · obtain ⟨hle, hlt, hnext⟩ := hjump ‹_›
    have hfirst : Inside begin fin (view.addLocal result (view.localIndex jump.2)) :=
      h.addLocal hle (by omega)
    have hboth : Inside begin fin (view.addLocal (view.addLocal result (view.localIndex jump.2))
        (view.localIndex (jump.2 + 1))) := hfirst.addLocal (by omega) (by omega)
    exact iteInduction (motive := Inside begin fin) (fun _ => hboth) fun _ => h
  · exact h

omit [WaveArith α] in
theorem Inside.addWithin (h : Inside begin fin result) {budget global : ℕ}
    (hle : begin ≤ view.localIndex global) (hlt : view.localIndex global < fin) :
    Inside begin fin (view.addWithin budget result global) := by
  unfold WaveQueryView.addWithin
  split
  · exact h.addLocal hle hlt
  · exact h

section Guarded

variable [LawfulWaveScalar α] {viewportBegin viewportEnd budget : ℕ}

theorem smallBudget_inside (hsync : view.channel.Synced)
    (hrange : GuardedRange view (viewportBegin, viewportEnd) (begin, fin))
    (hlt : viewportBegin < viewportEnd) {latestInViewport : Bool}
    (hlatest : latestInViewport = true →
      viewportBegin ≤ view.size - 1 ∧ view.size - 1 < viewportEnd) :
    Inside begin fin
      (view.smallBudgetIndices viewportBegin viewportEnd begin fin budget latestInViewport) := by
  obtain ⟨-, hsize, hbegin, hfin, hfinSize⟩ := hrange
  dsimp only at hsize hbegin hfin hfinSize
  have hs := summary_summarized hsync hlt hsize
  have hnil : Inside begin fin [] := by
    intro i hi
    cases hi
  have hfirst : Inside begin fin (view.addLocal [] begin) :=
    hnil.addLocal (Nat.le_refl _) (by omega)
  unfold smallBudgetIndices
  dsimp only
  apply Inside.finish
  generalize hstart : (if latestInViewport && decide (9 ≤ budget) then _ else _ : List ℕ) = start
  have hstart' : Inside begin fin start := by
    rw [← hstart]
    split
    · rename_i hcond
      obtain ⟨hcond, -⟩ := Bool.and_eq_true_iff.mp hcond
      have := hlatest hcond
      exact hfirst.addLatestTail hbegin this.1 (by omega)
    · split
      · exact hfirst.addLocal (by omega) (by omega)
      · exact hfirst
  have hrise : ∀ {list : List ℕ}, Inside begin fin list → Inside begin fin (view.addJump budget list
      ((view.summary viewportBegin viewportEnd).rise,
        (view.summary viewportBegin viewportEnd).riseBefore)) := by
    intro list hlist
    apply hlist.addJump
    intro hpositive
    have := hs.rise hpositive
    dsimp only
    omega
  have hfall : ∀ {list : List ℕ}, Inside begin fin list → Inside begin fin (view.addJump budget list
      ((view.summary viewportBegin viewportEnd).fall,
        (view.summary viewportBegin viewportEnd).fallBefore)) := by
    intro list hlist
    apply hlist.addJump
    intro hpositive
    have := hs.fall hpositive
    dsimp only
    omega
  have hminimum := hs.minimum
  have hmaximum := hs.maximum
  simp only [List.foldl_cons, List.foldl_nil]
  apply Inside.addWithin _ (by omega) (by omega)
  apply Inside.addWithin _ (by omega) (by omega)
  split
  · exact hrise (hfall hstart')
  · exact hfall (hrise hstart')

theorem stableBucket_inside (hsync : view.channel.Synced) {minTime width : α} {buckets : ℕ}
    {state : ℕ × List ℕ} (hbegin : begin ≤ viewportBegin) (hfin : viewportEnd ≤ fin)
    (hsize : viewportEnd ≤ view.size) (hstate : viewportBegin ≤ state.1)
    (h : Inside begin fin state.2) (bucket : ℕ) :
    viewportBegin ≤
        (view.stableBucket minTime width viewportBegin viewportEnd buckets state bucket).1 ∧
      Inside begin fin
        (view.stableBucket minTime width viewportBegin viewportEnd buckets state bucket).2 := by
  unfold stableBucket
  dsimp only
  split
  · exact ⟨hstate, h⟩
  · generalize hright : (if bucket + 1 < buckets then _ else viewportEnd : ℕ) = right
    have hbounds : state.1 ≤ right ∧ right ≤ viewportEnd := by
      rw [← hright]
      split
      · exact clampIndex_bounds _ (by omega)
      · omega
    split
    · exact ⟨hstate, h⟩
    · split
      · exact ⟨by dsimp only; omega, h.addLatestTail (by omega) (by omega) (by omega)⟩
      · refine ⟨by dsimp only; omega, ?_⟩
        generalize hleft : (if viewportBegin < state.1 then state.1 - 1 else state.1 : ℕ) = left
        have hle : viewportBegin ≤ left ∧ left < right := by
          rw [← hleft]
          split <;> omega
        exact h.addSummary (hbegin.trans hle.1) hle.2 (hbounds.2.trans hfin)
          (summary_summarized hsync hle.2 (hbounds.2.trans hsize))

theorem stableBuckets_inside (hsync : view.channel.Synced) {minTime width : α} {buckets : ℕ}
    (hbegin : begin ≤ viewportBegin) (hfin : viewportEnd ≤ fin) (hsize : viewportEnd ≤ view.size)
    (h : Inside begin fin result) (bucketIds : List ℕ) :
    viewportBegin ≤ (bucketIds.foldl
        (view.stableBucket minTime width viewportBegin viewportEnd buckets)
        (viewportBegin, result)).1 ∧
      Inside begin fin (bucketIds.foldl
        (view.stableBucket minTime width viewportBegin viewportEnd buckets)
        (viewportBegin, result)).2 := by
  have key : ∀ state : ℕ × List ℕ, viewportBegin ≤ state.1 → Inside begin fin state.2 →
      viewportBegin ≤ (bucketIds.foldl
        (view.stableBucket minTime width viewportBegin viewportEnd buckets) state).1 ∧
      Inside begin fin (bucketIds.foldl
        (view.stableBucket minTime width viewportBegin viewportEnd buckets) state).2 := by
    induction bucketIds with
    | nil =>
      intro state hle hinside
      exact ⟨hle, hinside⟩
    | cons bucket bucketIds ih =>
      intro state hle hinside
      obtain ⟨hle', hinside'⟩ := @stableBucket_inside _ _ view _ _ _ _ _ hsync minTime width buckets
        state hbegin hfin hsize hle hinside bucket
      exact ih _ hle' hinside'
  exact key _ (Nat.le_refl _) h

/-- **The stable buckets stay inside the range**, the neighbours of the view included. -/
theorem stableEdge_inside (hsync : view.channel.Synced) {minTime maxTime : α}
    (hrange : GuardedRange view (view.range minTime maxTime false) (begin, fin)) :
    Inside begin fin (view.stableEdgeIndices minTime maxTime begin fin budget) := by
  have hnil : Inside begin fin [] := by
    intro i hi
    cases hi
  unfold stableEdgeIndices
  generalize hviewport : view.range minTime maxTime false = viewport at hrange
  obtain ⟨viewportBegin, viewportEnd⟩ := viewport
  have hguarded := hrange
  obtain ⟨hle, hsize, hbegin, hfin, hfinSize⟩ := hrange
  dsimp only at hle hsize hbegin hfin hfinSize ⊢
  split
  · exact hnil
  · rename_i hne
    split
    · apply smallBudget_inside hsync hguarded (by omega)
      intro hlatest
      simpa using hlatest
    · apply Inside.finish
      generalize hguard : (if begin < viewportBegin then view.addLocal [] begin else [] : List ℕ) =
        guard
      have hguard' : Inside begin fin guard := by
        rw [← hguard]
        split
        · exact hnil.addLocal (Nat.le_refl _) (by omega)
        · exact hnil
      have hneighbour : ∀ body, Inside begin fin body →
          Inside begin fin (if viewportEnd < fin then view.addLocal body viewportEnd else body) := by
        intro body hbody
        split
        · exact hbody.addLocal (by omega) (by omega)
        · exact hbody
      apply hneighbour
      split
      · exact (stableBuckets_inside hsync hbegin hfin hsize hguard' _).2
      · have hs := summary_summarized hsync (by omega : viewportBegin < viewportEnd) hsize
        have hsummary : Inside begin fin
            (view.addSummary guard (view.summary viewportBegin viewportEnd)) :=
          hguard'.addSummary hbegin (by omega) hfin hs
        split
        · rename_i hlatest
          simp only [Bool.and_eq_true, decide_eq_true_eq] at hlatest
          exact hsummary.addLocal (by omega) (by omega)
        · exact hsummary

end Guarded

end Stable

/-! ### Both modes -/

/-- Positions to draw of the range `[begin, fin)` on a budget. -/
structure Selection (begin fin budget : ℕ) (result : List ℕ) : Prop where
  increasing : Increasing result
  inside : Inside begin fin result
  length : result.length ≤ budget

section Modes

variable [LawfulWaveScalar α] {minTime maxTime : α} {begin fin budget : ℕ}

theorem legacyUniform_selection (hsync : view.channel.Synced) (hsize : fin ≤ view.size)
    (hbudget : 0 < budget) (hmore : budget < fin - begin) :
    Selection begin fin budget (view.legacyUniformIndices minTime maxTime begin fin budget) ∧
      (4 ≤ budget →
        KeepsExtremes view begin fin (view.legacyUniformIndices minTime maxTime begin fin budget)) := by
  unfold legacyUniformIndices
  split
  · refine ⟨?_, fun hfour => by omega⟩
    split
    · refine ⟨?_, ?_, ?_⟩
      · exact List.pairwise_pair.mpr (by omega)
      · intro i hi
        simp only [List.mem_cons, List.not_mem_nil, or_false] at hi
        omega
      · exact ‹1 < budget›
    · refine ⟨List.pairwise_singleton _ _, ?_, ?_⟩
      · intro i hi
        rw [List.mem_singleton] at hi
        omega
      · exact hbudget
  · obtain ⟨hdrawn, hbegin, -, hlast⟩ := @legacyBuckets_drawn _ _ view _ hsync minTime maxTime begin
      fin (by omega) hsize (budget / 4) _ (Nat.le_refl _)
    have hfin := hlast (by omega) (Nat.le_refl _)
    dsimp only
    generalize (List.range (budget / 4)).foldl
      (view.legacyBucket minTime maxTime fin (budget / 4)) (begin, []) = state at *
    rw [hfin] at hdrawn hbegin
    have hlength := hdrawn.length
    refine ⟨⟨hdrawn.increasing, hdrawn.inside, by omega⟩, fun _ => ?_⟩
    obtain ⟨hfirst, hend⟩ := hdrawn.ends (by omega)
    exact KeepsExtremes.of_covers hsync (by omega) hsize hfirst hend hdrawn.least hdrawn.greatest

/-- All samples of a range are a selection that keeps everything. -/
theorem range_selection (hsync : view.channel.Synced) (hsize : fin ≤ view.size)
    (hlt : begin < fin) (hfits : fin - begin ≤ budget) :
    Selection begin fin budget (List.range' begin (fin - begin)) ∧
      KeepsExtremes view begin fin (List.range' begin (fin - begin)) := by
  have hmem : ∀ i, i ∈ List.range' begin (fin - begin) ↔ begin ≤ i ∧ i < fin := by
    intro i
    rw [List.mem_range'_1]
    omega
  refine ⟨⟨?_, fun i hi => (hmem i).mp hi, ?_⟩, ?_⟩
  · exact List.pairwise_lt_range'
  · rw [List.length_range']
    exact hfits
  · have hs := summary_summarized hsync hlt hsize
    exact ⟨(hmem _).mpr (by omega), (hmem _).mpr (by omega),
      ⟨_, (hmem _).mpr hs.minimum, hs.least⟩, ⟨_, (hmem _).mpr hs.maximum, hs.greatest⟩⟩

theorem nil_selection : Selection begin fin budget [] :=
  ⟨List.Pairwise.nil, (fun i hi => by cases hi), Nat.zero_le _⟩

/-- **What is drawn of a range**, in either mode. -/
theorem traceIndices_selection (hsync : view.channel.Synced)
    (hnumber : IsNumber (ordered minTime maxTime).2) (guards : Bool) (mode : WaveDownsampleMode) :
    Selection (view.range minTime maxTime guards).1 (view.range minTime maxTime guards).2 budget
        (view.traceIndices minTime maxTime budget guards mode) ∧
      (mode = .legacyUniform → 4 ≤ budget →
        (view.range minTime maxTime guards).1 < (view.range minTime maxTime guards).2 →
        KeepsExtremes view (view.range minTime maxTime guards).1
          (view.range minTime maxTime guards).2
          (view.traceIndices minTime maxTime budget guards mode)) := by
  have hguarded := @range_guarded _ _ view _ _ _ hnumber guards
  rw [← range_ordered minTime maxTime false] at hguarded
  unfold traceIndices
  dsimp only
  rw [range_ordered]
  generalize view.range minTime maxTime guards = selected at *
  obtain ⟨begin, fin⟩ := selected
  obtain ⟨hle, -, hbegin, hfin, hsize⟩ := id hguarded
  dsimp only at hbegin hfin hsize ⊢
  by_cases hnone : begin = fin ∨ budget = 0
  · rw [if_pos hnone]
    exact ⟨nil_selection, fun _ hfour hlt => by omega⟩
  · rw [if_neg hnone]
    by_cases hfits : begin ≤ fin ∧ fin - begin ≤ budget
    · rw [if_pos hfits]
      obtain ⟨hselection, hkeeps⟩ := range_selection hsync hsize (by omega) hfits.2
      exact ⟨hselection, fun _ _ _ => hkeeps⟩
    · rw [if_neg hfits]
      cases mode with
      | legacyUniform =>
        obtain ⟨hselection, hkeeps⟩ := @legacyUniform_selection _ _ view _
          (ordered minTime maxTime).1 (ordered minTime maxTime).2 begin fin budget hsync hsize
          (by omega) (by omega)
        exact ⟨hselection, fun _ hfour _ => hkeeps hfour⟩
      | stableEdges =>
        refine ⟨⟨?_, stableEdge_inside hsync hguarded, ?_⟩, fun h => by cases h⟩
        · unfold stableEdgeIndices
          dsimp only
          split
          · exact List.Pairwise.nil
          · split
            · exact finish_increasing _ _
            · exact finish_increasing _ _
        · unfold stableEdgeIndices
          dsimp only
          split
          · exact Nat.zero_le _
          · split
            · exact length_finish_le _ _
            · exact length_finish_le _ _

end Modes

end WaveQueryView

open WaveQueryView

/-- **Downsampling a trace.**  The positions are strictly increasing, inside the selected
range and not more than the budget; the uniform mode with a budget of at least four keeps
the ends of a range that is not empty and its least and greatest finite values.  Samples
may be anything, in any order of time; only an upper bound that is not a number selects no
range. -/
theorem trace_indices_selected (steps : List (WindowStep Float)) (indexed : Bool)
    (ratio scale offset : Float) (axis : WaveTimeAxisSource) (frequency : Float)
    (formula : WaveDisplayFormula) (minTime maxTime : Float) (hnumber : maxTime.isNaN = false)
    (budget : ℕ) (guards : Bool) (mode : WaveDownsampleMode) :
    let view : WaveQueryView Float :=
      ⟨(SampleWindow.run steps).channel indexed ratio scale offset, axis, frequency, formula⟩
    let selected := view.range minTime maxTime guards
    let indices := view.traceIndices minTime maxTime budget guards mode
    Selection selected.1 selected.2 budget indices ∧
      (mode = .legacyUniform → 4 ≤ budget → selected.1 < selected.2 →
        KeepsExtremes view selected.1 selected.2 indices) :=
  traceIndices_selection (SampleWindow.channel_synced steps indexed ratio scale offset)
    (isNumber_ordered hnumber) guards mode

/-- A step that appends samples of the given values, all at time zero. -/
def appendedAtZero (values : List Float) : WindowStep Float :=
  .slide 0 (values.map fun value => ⟨Float.ofBits 0, value⟩) false

/-- Three samples, drawn with a budget of two. -/
theorem trace_indices_selected_two :
    Selection 0 3 2 (WaveQueryView.traceIndices (α := Float)
      ⟨(SampleWindow.run [appendedAtZero [Float.ofBits 0, Float.ofBits 0, Float.ofBits 0]]).channel
        true (Float.ofBits 0) (Float.ofBits 0) (Float.ofBits 0), .scriptTime, Float.ofBits 0,
        .offsetThenScale⟩ (Float.ofBits 0) (Float.ofBits 0) 2 false .legacyUniform) :=
  (trace_indices_selected
    [appendedAtZero [Float.ofBits 0, Float.ofBits 0, Float.ofBits 0]] true (Float.ofBits 0)
    (Float.ofBits 0) (Float.ofBits 0) .scriptTime (Float.ofBits 0) .offsetThenScale (Float.ofBits 0)
    (Float.ofBits 0) (by decide +kernel) 2 false .legacyUniform).1

/-- Five samples, the second of them minus infinity, and a budget of four: the ends are
kept, and the sample below all others is not.  Three samples and a window whose upper bound
is not a number: the two positions are in the wrong order. -/
theorem infinite_sample_and_missing_bound :
    let one := Float.ofBits 0x3FF0000000000000
    let minusInfinity := Float.ofBits 0xFFF0000000000000
    let notANumber := Float.ofBits 0x7FF8000000000000
    let view := fun steps : List (WindowStep Float) =>
      (⟨(SampleWindow.run steps).channel true one one one, .scriptTime, one, .offsetThenScale⟩ :
        WaveQueryView Float)
    let five := view [appendedAtZero [one, minusInfinity, one, one, one]]
    let three := view [appendedAtZero [one, one, one]]
    (five.range (Float.ofBits 0) (Float.ofBits 0) false = (0, 5) ∧
      five.traceIndices (Float.ofBits 0) (Float.ofBits 0) 4 false .legacyUniform = [0, 4] ∧
      WaveScalar.lt (five.rawSample 1).value (five.rawSample 0).value = true ∧
      WaveScalar.lt (five.rawSample 1).value (five.rawSample 4).value = true) ∧
    three.traceIndices one notANumber 2 true .legacyUniform = [2, 0] := by
  decide +kernel

end ProtoScope.Plot
