/-
The stable buckets of one view.

A bucket starts where the one before it ended and takes the samples up to its own border.
What is collected is increasing, lies before the place where the loop stands and includes
the last sample of every bucket, so the left neighbour a bucket looks at is never taken
twice.  It fits the budget all along, so the final sorting and cutting change nothing.
-/
import ProtoScope.Proofs.Plot.TraceIndices

namespace ProtoScope.Plot

open ProtoScope.Library
open ProtoScope.Library.IncreasingList
open WaveScalar

namespace WaveQueryView

variable {α : Type} [WaveArith α] {view : WaveQueryView α}

/-! ### What is collected grows at its end -/

/-- A list that was extended by positions of `indices` and is still increasing. -/
structure ExtendedBy (result indices after : List ℕ) : Prop where
  increasing : Increasing after
  extra : ∃ extra, after = result ++ extra ∧ (∀ i ∈ extra, i ∈ indices) ∧
    extra.length ≤ indices.length

theorem ExtendedBy.refl {result : List ℕ} (h : Increasing result) (indices : List ℕ) :
    ExtendedBy result indices result :=
  ⟨h, [], (List.append_nil _).symm, by simp, Nat.zero_le _⟩

theorem ExtendedBy.of_sorted {result indices after : List ℕ}
    (h : ExtendedBy result (sorted indices) after) : ExtendedBy result indices after := by
  obtain ⟨hincreasing, extra, hafter, hmem, hlength⟩ := h
  refine ⟨hincreasing, extra, hafter, ?_, ?_⟩
  · intro i hi
    exact List.mem_insertionSort _ |>.mp (hmem i hi)
  · exact hlength.trans (List.length_insertionSort _ _).le

omit [WaveArith α] in
theorem appendSorted_extended {result : List ℕ} (h : Increasing result) (indices : List ℕ) :
    ExtendedBy result indices (view.appendSorted result indices) := by
  apply ExtendedBy.of_sorted
  unfold appendSorted
  generalize sorted indices = indices
  induction indices generalizing result with
  | nil => exact ExtendedBy.refl h []
  | cons index indices ih =>
    rw [List.foldl_cons]
    have hskip : ∀ {after}, ExtendedBy result indices after →
        ExtendedBy result (index :: indices) after := by
      rintro after ⟨hincreasing, extra, hafter, hmem, hlength⟩
      exact ⟨hincreasing, extra, hafter, fun i hi => List.mem_cons_of_mem _ (hmem i hi),
        hlength.trans (Nat.le_succ _)⟩
    have hpush : ∀ {after}, ExtendedBy (result ++ [index]) indices after →
        ExtendedBy result (index :: indices) after := by
      rintro after ⟨hincreasing, extra, hafter, hmem, hlength⟩
      refine ⟨hincreasing, index :: extra, ?_, ?_, ?_⟩
      · rw [hafter, List.append_assoc]
        rfl
      · intro i hi
        rcases List.mem_cons.mp hi with rfl | hi
        · exact List.mem_cons_self
        · exact List.mem_cons_of_mem _ (hmem i hi)
      · rw [List.length_cons, List.length_cons]
        omega
    split
    · exact hskip (ih h)
    · split
      · rename_i hnone
        obtain rfl := List.getLast?_eq_none_iff.mp hnone
        exact hpush (ih (List.pairwise_singleton _ _))
      · rename_i last hlast
        split
        · refine hpush (ih (h.snoc ?_))
          intro i hi
          have := h.le_last hlast hi
          omega
        · exact hskip (ih h)

omit [WaveArith α] in
/-- The greatest of all positions is taken. -/
theorem mem_appendSorted {m : ℕ} (hsize : m < view.size) {result indices : List ℕ}
    (hmem : m ∈ result ∨ m ∈ indices) (hresult : ∀ i ∈ result, i ≤ m)
    (hindices : ∀ i ∈ indices, i ≤ m) : m ∈ view.appendSorted result indices := by
  replace hmem : m ∈ result ∨ m ∈ sorted indices :=
    hmem.imp_right (List.mem_insertionSort _).mpr
  replace hindices : ∀ i ∈ sorted indices, i ≤ m :=
    fun i hi => hindices i ((List.mem_insertionSort _).mp hi)
  unfold appendSorted
  generalize sorted indices = indices at hmem hindices
  induction indices generalizing result with
  | nil =>
    rcases hmem with hmem | hmem
    · exact hmem
    · cases hmem
  | cons index indices ih =>
    have hindex : index ≤ m := hindices index List.mem_cons_self
    have hrest : ∀ i ∈ indices, i ≤ m := fun i hi => hindices i (List.mem_cons_of_mem _ hi)
    rw [List.foldl_cons, if_neg (by omega)]
    have hpush : ∀ {before : List ℕ}, (∀ i ∈ before, i ≤ m) →
        ∀ i ∈ before ++ [index], i ≤ m := by
      intro before hbefore i hi
      rcases List.mem_append.mp hi with hi | hi
      · exact hbefore i hi
      · exact List.mem_singleton.mp hi ▸ hindex
    split
    · rename_i hnone
      obtain rfl := List.getLast?_eq_none_iff.mp hnone
      refine ih (hpush hresult) ?_ hrest
      rcases hmem with hmem | hmem
      · cases hmem
      · rcases List.mem_cons.mp hmem with rfl | hmem
        · exact .inl List.mem_cons_self
        · exact .inr hmem
    · rename_i last hlast
      have hle : last ≤ m := hresult last (List.mem_of_getLast? hlast)
      split
      · refine ih (hpush hresult) ?_ hrest
        rcases hmem with hmem | hmem
        · exact .inl (List.mem_append_left _ hmem)
        · rcases List.mem_cons.mp hmem with rfl | hmem
          · exact .inl (List.mem_append_right _ List.mem_cons_self)
          · exact .inr hmem
      · rename_i hskip
        refine ih hresult ?_ hrest
        rcases hmem with hmem | hmem
        · exact .inl hmem
        · rcases List.mem_cons.mp hmem with rfl | hmem
          · -- the greatest position is passed over only where it was taken before
            have heq : last = m := by omega
            exact .inl (heq ▸ List.mem_of_getLast? hlast)
          · exact .inr hmem

/-- What the loop has collected when it stands at `left`, after `buckets` buckets. -/
structure Collected (left buckets : ℕ) (result : List ℕ) : Prop where
  increasing : Increasing result
  below : ∀ i ∈ result, i < left
  length : result.length ≤ 1 + 8 * buckets

theorem Collected.extend {left right buckets : ℕ} {result indices after : List ℕ}
    (h : Collected left buckets result) (hle : left ≤ right)
    (hafter : ExtendedBy result indices after) (hindices : ∀ i ∈ indices, i < right)
    (height : indices.length = 8) : Collected right (buckets + 1) after := by
  obtain ⟨hincreasing, extra, rfl, hmem, hlength⟩ := hafter
  refine ⟨hincreasing, ?_, ?_⟩
  · intro i hi
    rcases List.mem_append.mp hi with hi | hi
    · exact (h.below i hi).trans_le hle
    · exact hindices i (hmem i hi)
  · have := h.length
    rw [List.length_append]
    omega

theorem Collected.skip {left buckets : ℕ} {result : List ℕ} (h : Collected left buckets result) :
    Collected left (buckets + 1) result :=
  { h with length := h.length.trans (by omega) }

/-! ### One bucket -/

omit [WaveArith α] in
theorem clampIndex_eq (value : ℕ) {lo hi : ℕ} (h : lo ≤ hi) :
    clampIndex value lo hi = max lo (min value hi) := by
  unfold clampIndex
  split
  · omega
  · split <;> omega

/-- Where a bucket that starts at `left` ends. -/
def bucketRight (view : WaveQueryView α) (minTime width : α) (viewportEnd buckets left bucket : ℕ) :
    ℕ :=
  if bucket + 1 < buckets then
    clampIndex (view.bound (boundary minTime width bucket) false) left viewportEnd
  else viewportEnd

theorem bucketRight_bounds {minTime width : α} {viewportEnd buckets left bucket : ℕ}
    (hle : left ≤ viewportEnd) :
    left ≤ view.bucketRight minTime width viewportEnd buckets left bucket ∧
      view.bucketRight minTime width viewportEnd buckets left bucket ≤ viewportEnd := by
  unfold bucketRight
  split
  · exact clampIndex_bounds _ hle
  · exact ⟨hle, Nat.le_refl _⟩

variable [LawfulWaveScalar α]

theorem range_same (t : α) : (view.range t t false).1 = view.bound t false := by
  have hordered : ordered t t = (t, t) := if_neg (not_lt_self t)
  unfold range
  rw [hordered]
  rfl

/-- The first sample a bucket looks at: its left neighbour, except in the first bucket. -/
def withNeighbour (viewportBegin left : ℕ) : ℕ :=
  if viewportBegin < left then left - 1 else left

theorem stableBucket_eq {minTime width : α} {viewportBegin viewportEnd buckets bucket left : ℕ}
    (result : List ℕ) (hlt : left < viewportEnd) :
    view.stableBucket minTime width viewportBegin viewportEnd buckets (left, result) bucket =
      let right := view.bucketRight minTime width viewportEnd buckets left bucket
      if right = left then (left, result)
      else if viewportBegin ≤ view.size - 1 ∧ view.size - 1 < viewportEnd ∧
          left ≤ view.size - 1 ∧ view.size - 1 < right then
        (right, view.appendSorted result (view.tailIndices left))
      else
        (right, view.addSummary result
          (view.summary (withNeighbour viewportBegin left) right)) := by
  unfold stableBucket
  dsimp only
  rw [if_neg (Nat.not_le.mpr hlt), range_same]
  rfl

omit [LawfulWaveScalar α] in
theorem stableBucket_done {minTime width : α} {viewportBegin viewportEnd buckets : ℕ}
    {state : ℕ × List ℕ} (h : viewportEnd ≤ state.1) (bucket : ℕ) :
    view.stableBucket minTime width viewportBegin viewportEnd buckets state bucket = state :=
  if_pos h

omit [WaveArith α] [LawfulWaveScalar α] in
theorem latest_mem_tailIndices {bucketBegin : ℕ} (hle : bucketBegin ≤ view.size - 1) :
    view.size - 1 ∈ view.tailIndices bucketBegin := by
  unfold tailIndices
  dsimp only
  refine List.mem_append_left _ (List.mem_cons_of_mem _ (List.mem_range'_1.mpr ?_))
  split <;> omega

/-- What holds of the loop over the buckets when it stands at a state. -/
structure BucketState (viewportBegin viewportEnd buckets : ℕ) (state : ℕ × List ℕ) : Prop where
  begin_le : viewportBegin ≤ state.1
  le_end : state.1 ≤ viewportEnd
  collected : Collected state.1 buckets state.2
  joined : viewportBegin < state.1 → state.1 - 1 ∈ state.2

theorem BucketState.step (hsync : view.channel.Synced) {minTime width : α}
    {viewportBegin viewportEnd buckets n : ℕ} {state : ℕ × List ℕ}
    (hsize : viewportEnd ≤ view.size) (h : BucketState viewportBegin viewportEnd n state)
    (bucket : ℕ) :
    BucketState viewportBegin viewportEnd (n + 1)
      (view.stableBucket minTime width viewportBegin viewportEnd buckets state bucket) := by
  obtain ⟨left, result⟩ := state
  obtain ⟨hbegin, hend, hcollected, hjoined⟩ := h
  dsimp only at hbegin hend hcollected hjoined
  rcases Nat.eq_or_lt_of_le hend with heq | hlt
  · rw [stableBucket_done (Nat.le_of_eq heq.symm)]
    exact ⟨hbegin, hend, hcollected.skip, hjoined⟩
  · rw [stableBucket_eq result hlt]
    dsimp only
    obtain ⟨hleft, hright⟩ := @bucketRight_bounds _ _ view minTime width viewportEnd buckets left
      bucket hend
    split
    · exact ⟨hbegin, hend, hcollected.skip, hjoined⟩
    · rename_i hne
      have hbelow : ∀ i ∈ result,
          i ≤ view.bucketRight minTime width viewportEnd buckets left bucket - 1 := by
        intro i hi
        have := hcollected.below i hi
        omega
      split
      · rename_i hnewest
        have hin : ∀ i ∈ view.tailIndices left, left ≤ i ∧ i ≤ view.size - 1 :=
          fun i hi => mem_tailIndices (by omega) hi
        refine ⟨hbegin.trans hleft, hright, ?_, fun _ => ?_⟩
        · refine hcollected.extend hleft (appendSorted_extended hcollected.increasing _) ?_
            (length_tailIndices left)
          intro i hi
          have := hin i hi
          dsimp only
          omega
        · refine mem_appendSorted (by omega) (.inr ?_) hbelow ?_
          · have hlatest : view.bucketRight minTime width viewportEnd buckets left bucket - 1 =
                view.size - 1 := by omega
            rw [hlatest]
            exact latest_mem_tailIndices (by omega)
          · intro i hi
            have := hin i hi
            omega
      · have hle : withNeighbour viewportBegin left <
            view.bucketRight minTime width viewportEnd buckets left bucket := by
          unfold withNeighbour
          split <;> omega
        have hs := summary_summarized hsync hle (hright.trans hsize)
        have hin : ∀ i ∈ view.summaryIndices (view.summary (withNeighbour viewportBegin left)
            (view.bucketRight minTime width viewportEnd buckets left bucket)),
            i < view.bucketRight minTime width viewportEnd buckets left bucket :=
          fun i hi => (mem_summaryIndices hs hle hi).2
        rw [addSummary_eq hs]
        refine ⟨hbegin.trans hleft, hright, ?_, fun _ => ?_⟩
        · exact hcollected.extend hleft (appendSorted_extended hcollected.increasing _) hin rfl
        · refine mem_appendSorted (by omega) (.inr ?_) hbelow ?_
          · rw [← hs.last]
            exact List.mem_map_of_mem (by simp)
          · intro i hi
            have := hin i hi
            omega

theorem BucketState.run (hsync : view.channel.Synced) {minTime width : α}
    {viewportBegin viewportEnd buckets : ℕ} {result : List ℕ} (hsize : viewportEnd ≤ view.size)
    (hle : viewportBegin ≤ viewportEnd) (h : Collected viewportBegin 0 result) (n : ℕ) :
    BucketState viewportBegin viewportEnd n
      ((List.range n).foldl (view.stableBucket minTime width viewportBegin viewportEnd buckets)
        (viewportBegin, result)) := by
  induction n with
  | zero => exact ⟨Nat.le_refl _, hle, h, fun hlt => absurd hlt (Nat.lt_irrefl _)⟩
  | succ n ih =>
    rw [List.range_succ, List.foldl_append, List.foldl_cons, List.foldl_nil]
    exact ih.step hsync hsize n

/-- **A bucket adds only positions from its start on**: the left neighbour was taken before. -/
theorem BucketState.grown (hsync : view.channel.Synced) {minTime width : α}
    {viewportBegin viewportEnd buckets n : ℕ} {state : ℕ × List ℕ}
    (hsize : viewportEnd ≤ view.size) (h : BucketState viewportBegin viewportEnd n state)
    (bucket : ℕ) :
    state.1 ≤ (view.stableBucket minTime width viewportBegin viewportEnd buckets state bucket).1 ∧
      ∃ extra, (view.stableBucket minTime width viewportBegin viewportEnd buckets state bucket).2 =
        state.2 ++ extra ∧ ∀ i ∈ extra, state.1 ≤ i := by
  obtain ⟨left, result⟩ := state
  obtain ⟨hbegin, hend, hcollected, hjoined⟩ := h
  dsimp only at hbegin hend hcollected hjoined ⊢
  have hsame : ∃ extra, result = result ++ extra ∧ ∀ i ∈ extra, left ≤ i :=
    ⟨[], (List.append_nil _).symm, by simp⟩
  have hadded : ∀ indices, (∀ i ∈ indices, withNeighbour viewportBegin left ≤ i) →
      ∃ extra, view.appendSorted result indices = result ++ extra ∧ ∀ i ∈ extra, left ≤ i := by
    intro indices hindices
    obtain ⟨hincreasing, extra, hafter, hmem, -⟩ :=
      @appendSorted_extended _ view _ hcollected.increasing indices
    refine ⟨extra, hafter, ?_⟩
    intro i hi
    have hfrom := hindices i (hmem i hi)
    unfold withNeighbour at hfrom
    split at hfrom
    · rename_i hlt
      rw [hafter] at hincreasing
      have := (List.pairwise_append.mp hincreasing).2.2 _ (hjoined hlt) i hi
      omega
    · exact hfrom
  rcases Nat.eq_or_lt_of_le hend with heq | hlt
  · rw [stableBucket_done (Nat.le_of_eq heq.symm)]
    exact ⟨Nat.le_refl _, hsame⟩
  · rw [stableBucket_eq result hlt]
    dsimp only
    obtain ⟨hleft, hright⟩ := @bucketRight_bounds _ _ view minTime width viewportEnd buckets left
      bucket hend
    have hneighbour : withNeighbour viewportBegin left ≤ left := by
      unfold withNeighbour
      split <;> omega
    split
    · exact ⟨Nat.le_refl _, hsame⟩
    · split
      · refine ⟨hleft, hadded _ ?_⟩
        intro i hi
        have := mem_tailIndices (by omega) hi
        omega
      · have hs := @summary_summarized _ _ view (withNeighbour viewportBegin left)
          (view.bucketRight minTime width viewportEnd buckets left bucket) _ hsync (by omega)
          (hright.trans hsize)
        rw [addSummary_eq hs]
        exact ⟨hleft, hadded _ fun i hi => (mem_summaryIndices hs (by omega) hi).1⟩

omit [WaveArith α] [LawfulWaveScalar α] in
/-- Sorting and cutting change nothing of an increasing list within the budget. -/
theorem finish_eq {budget : ℕ} {result : List ℕ} (h : Increasing result)
    (hlength : result.length ≤ budget) : finish budget result = result := by
  have hsorted : (sorted result).dedup = result := h.dedup_sort
  unfold finish
  rw [hsorted, List.take_of_length_le hlength]

omit [WaveArith α] [LawfulWaveScalar α] in
theorem addLocal_extended {result : List ℕ} (h : Increasing result) {index : ℕ}
    (hlast : ∀ i ∈ result, i ≤ index) : ExtendedBy result [index] (view.addLocal result index) := by
  unfold addLocal
  split
  · rename_i hnew
    refine ⟨h.snoc ?_, [index], rfl, fun i hi => hi, Nat.le_refl _⟩
    intro i hi
    refine lt_of_le_of_ne (hlast i hi) ?_
    rintro rfl
    exact hnew.2 hi
  · exact ExtendedBy.refl h _

/-! ### The whole selection -/

/-- What is collected before the neighbour on the right. -/
def stableBody (view : WaveQueryView α) (minTime maxTime : α) (viewportBegin viewportEnd budget : ℕ)
    (guard : List ℕ) : List ℕ :=
  let buckets := (budget - 2) / 8
  let width := bucketWidth minTime maxTime buckets
  let latest := view.size - 1
  let latestInViewport := decide (viewportBegin ≤ latest) && decide (latest < viewportEnd)
  if lt zero width && isFinite width then
    ((List.range buckets).foldl (view.stableBucket minTime width viewportBegin viewportEnd buckets)
      (viewportBegin, guard)).2
  else
    let result := view.addSummary guard (view.summary viewportBegin viewportEnd)
    if latestInViewport then view.addLocal result latest else result

def leftGuard (view : WaveQueryView α) (begin viewportBegin : ℕ) : List ℕ :=
  if begin < viewportBegin then view.addLocal [] begin else []

omit [LawfulWaveScalar α] in
theorem stableEdgeIndices_eq {minTime maxTime : α} {begin fin budget viewportBegin viewportEnd : ℕ}
    (hrange : view.range minTime maxTime false = (viewportBegin, viewportEnd))
    (hlt : viewportBegin < viewportEnd) (hbudget : 18 ≤ budget) :
    view.stableEdgeIndices minTime maxTime begin fin budget =
      let body := view.stableBody minTime maxTime viewportBegin viewportEnd budget
        (view.leftGuard begin viewportBegin)
      finish budget (if viewportEnd < fin then view.addLocal body viewportEnd else body) := by
  unfold stableEdgeIndices
  rw [hrange]
  dsimp only
  rw [if_neg (Nat.ne_of_lt hlt), if_neg (by omega)]
  rfl

omit [WaveArith α] [LawfulWaveScalar α] in
theorem leftGuard_collected (begin viewportBegin : ℕ) :
    Collected viewportBegin 0 (view.leftGuard begin viewportBegin) := by
  unfold leftGuard addLocal
  split
  · split
    · refine ⟨List.pairwise_singleton _ _, ?_, Nat.le_refl _⟩
      intro i hi
      rw [List.nil_append, List.mem_singleton] at hi
      omega
    · exact ⟨List.Pairwise.nil, by simp, Nat.zero_le _⟩
  · exact ⟨List.Pairwise.nil, by simp, Nat.zero_le _⟩

theorem Collected.weaken {left right n buckets : ℕ} {result : List ℕ} (h : Collected left n result)
    (hle : left ≤ right) (hn : n ≤ buckets) : Collected right buckets result :=
  ⟨h.increasing, fun i hi => (h.below i hi).trans_le hle, h.length.trans (by omega)⟩

/-- Without usable buckets the view is one bucket. -/
theorem oneBucket_collected (hsync : view.channel.Synced) {viewportBegin viewportEnd : ℕ}
    {guard : List ℕ} (hlt : viewportBegin < viewportEnd) (hsize : viewportEnd ≤ view.size)
    (hguard : Collected viewportBegin 0 guard) :
    Collected viewportEnd 1 (view.addSummary guard (view.summary viewportBegin viewportEnd)) := by
  have hs := summary_summarized hsync hlt hsize
  rw [addSummary_eq hs]
  refine hguard.extend hlt.le (appendSorted_extended hguard.increasing _) ?_ rfl
  intro i hi
  exact (mem_summaryIndices hs hlt hi).2

theorem oneBucket_grown (hsync : view.channel.Synced) {viewportBegin viewportEnd : ℕ}
    {guard : List ℕ} (hlt : viewportBegin < viewportEnd) (hsize : viewportEnd ≤ view.size)
    (hguard : Collected viewportBegin 0 guard) :
    let result := view.addSummary guard (view.summary viewportBegin viewportEnd)
    ∃ extra, (if decide (viewportBegin ≤ view.size - 1) && decide (view.size - 1 < viewportEnd) then
        view.addLocal result (view.size - 1) else result) = guard ++ extra ∧
      ∀ i ∈ extra, viewportBegin ≤ i := by
  have hs := summary_summarized hsync hlt hsize
  have hone := oneBucket_collected hsync hlt hsize hguard
  obtain ⟨extra, hafter, hmem, -⟩ := (@appendSorted_extended _ view _ hguard.increasing
    (view.summaryIndices (view.summary viewportBegin viewportEnd))).extra
  have hextra : ∀ i ∈ extra, viewportBegin ≤ i :=
    fun i hi => (mem_summaryIndices hs hlt (hmem i hi)).1
  dsimp only
  split
  · obtain ⟨more, hmore, hmoreMem, -⟩ := (@addLocal_extended _ view _ hone.increasing (view.size - 1)
      fun i hi => Nat.le_sub_one_of_lt ((hone.below i hi).trans_le hsize)).extra
    rw [hmore, addSummary_eq hs, hafter, List.append_assoc]
    refine ⟨extra ++ more, rfl, ?_⟩
    intro i hi
    rcases List.mem_append.mp hi with hi | hi
    · exact hextra i hi
    · rw [List.mem_singleton.mp (hmoreMem i hi)]
      omega
  · rw [addSummary_eq hs, hafter]
    exact ⟨extra, rfl, hextra⟩

theorem stableBody_collected (hsync : view.channel.Synced) {minTime maxTime : α}
    {viewportBegin viewportEnd budget : ℕ} {guard : List ℕ} (hlt : viewportBegin < viewportEnd)
    (hsize : viewportEnd ≤ view.size) (hbudget : 18 ≤ budget)
    (hguard : Collected viewportBegin 0 guard) :
    Collected viewportEnd ((budget - 2) / 8)
      (view.stableBody minTime maxTime viewportBegin viewportEnd budget guard) := by
  unfold stableBody
  dsimp only
  split
  · have hstate := @BucketState.run _ _ view _ hsync minTime
      (bucketWidth minTime maxTime ((budget - 2) / 8)) _ _ ((budget - 2) / 8) _ hsize hlt.le hguard
      ((budget - 2) / 8)
    exact hstate.collected.weaken hstate.le_end (Nat.le_refl _)
  · have hone := oneBucket_collected hsync hlt hsize hguard
    split
    · rename_i hlatest
      simp only [Bool.and_eq_true, decide_eq_true_eq] at hlatest
      obtain ⟨hincreasing, extra, hafter, hmem, hlength⟩ := @addLocal_extended _ view _
        hone.increasing _ (fun i hi => by
          have := hone.below i hi
          omega : ∀ i ∈ _, i ≤ view.size - 1)
      have hbound := hone.length
      rw [List.length_singleton] at hlength
      rw [hafter] at hincreasing ⊢
      refine ⟨hincreasing, ?_, ?_⟩
      · intro i hi
        rcases List.mem_append.mp hi with hi | hi
        · exact hone.below i hi
        · have := List.mem_singleton.mp (hmem i hi)
          omega
      · rw [List.length_append]
        omega
    · exact hone.weaken (Nat.le_refl _) (by omega)

/-- **What was collected fits the budget**, so it is given as it is. -/
theorem stableEdgeIndices_body (hsync : view.channel.Synced) {minTime maxTime : α}
    {begin fin budget viewportBegin viewportEnd : ℕ}
    (hrange : view.range minTime maxTime false = (viewportBegin, viewportEnd))
    (hlt : viewportBegin < viewportEnd) (hsize : viewportEnd ≤ view.size) (hbudget : 18 ≤ budget) :
    view.stableEdgeIndices minTime maxTime begin fin budget =
      let body := view.stableBody minTime maxTime viewportBegin viewportEnd budget
        (view.leftGuard begin viewportBegin)
      if viewportEnd < fin then view.addLocal body viewportEnd else body := by
  rw [stableEdgeIndices_eq hrange hlt hbudget]
  dsimp only
  have hbody := @stableBody_collected _ _ view _ hsync minTime maxTime _ _ _ _ hlt hsize hbudget
    (@leftGuard_collected _ view begin viewportBegin)
  have hlength := hbody.length
  split
  · obtain ⟨hincreasing, extra, hafter, -, hextra⟩ := @addLocal_extended _ view _
      hbody.increasing _ fun i hi => (hbody.below i hi).le
    refine finish_eq hincreasing ?_
    rw [hafter, List.length_append]
    rw [List.length_singleton] at hextra
    omega
  · exact finish_eq hbody.increasing (by omega)

end WaveQueryView

end ProtoScope.Plot
