/-
Stable buckets do not jitter.

The borders of the buckets depend on the width of the buckets and on where the view starts,
so later samples, or a window that ends elsewhere, move none of them.  Two runs of the loop,
over the samples so far and over those and later ones, go through the same states until they
reach the bucket of the last sample that both of them show; from there each only adds
positions from the start of that bucket on.
-/
import ProtoScope.Proofs.Plot.StableBuckets

namespace ProtoScope.Plot

open ProtoScope.Library
open ProtoScope.Library.IncreasingList
open WaveScalar SampleWindow

namespace WaveQueryView

variable {α : Type} [WaveArith α] [LawfulWaveScalar α] {view : WaveQueryView α}

/-! ### The same channel with later samples -/

/-- A view of the same channel that has more samples at its end. -/
structure Extends (earlier later : WaveQueryView α) : Prop where
  samples : ∃ appended, later.channel.samples = earlier.channel.samples ++ appended
  offset : later.channel.sampleIndexOffset = earlier.channel.sampleIndexOffset
  axis : later.axis = earlier.axis
  frequency : later.frequency = earlier.frequency

section Extends

variable {earlier later : WaveQueryView α}

omit [WaveArith α] [LawfulWaveScalar α] in
theorem Extends.size_le (h : Extends earlier later) : earlier.size ≤ later.size := by
  obtain ⟨appended, happended⟩ := h.samples
  unfold size
  rw [happended, List.length_append]
  omega

omit [LawfulWaveScalar α] in
theorem Extends.rawSample (h : Extends earlier later) {i : ℕ} (hi : i < earlier.size) :
    later.rawSample i = earlier.rawSample i := by
  obtain ⟨appended, happended⟩ := h.samples
  unfold WaveQueryView.rawSample
  rw [happended, List.getD_append _ _ _ _ hi]

omit [LawfulWaveScalar α] in
theorem Extends.time (h : Extends earlier later) {i : ℕ} (hi : i < earlier.size) :
    later.time i = earlier.time i := by
  unfold WaveQueryView.time
  rw [h.rawSample hi, h.axis, h.frequency, h.offset]

omit [LawfulWaveScalar α] in
theorem TimesAscend.of_extends (h : Extends earlier later) (hlater : later.TimesAscend) :
    earlier.TimesAscend := by
  intro i j hij hj
  rw [← h.time hj, ← h.time (hij.trans hj)]
  exact hlater i j hij (hj.trans_le h.size_le)

omit [LawfulWaveScalar α] in
/-- **Later samples do not move a position that was found before them.** -/
theorem Extends.bound [LawfulWaveOrder α] (h : Extends earlier later)
    (hlater : later.TimesAscend) (t : α) (upper : Bool) :
    earlier.bound t upper = min (later.bound t upper) earlier.size := by
  have hsplits := hlater.bound_splits t upper
  apply ((hlater.of_extends h).bound_splits t upper).unique
  refine ⟨Nat.min_le_right _ _, ?_, ?_⟩
  · intro i hi
    rw [← h.time (by omega)]
    exact hsplits.below i (by omega)
  · intro i hi hsize
    rw [← h.time hsize]
    exact hsplits.above i (by omega) (hsize.trans_le h.size_le)

theorem Extends.summary (h : Extends earlier later) (hearlier : earlier.channel.Synced)
    (hlater : later.channel.Synced) {begin fin : ℕ} (hle : begin ≤ fin)
    (hsize : fin ≤ earlier.size) : later.summary begin fin = earlier.summary begin fin := by
  rw [summary_eq hlater hle (hsize.trans h.size_le), summary_eq hearlier hle hsize, h.offset]
  apply scanOf_congr
  intro i hi hlt
  have hat : i - earlier.channel.sampleIndexOffset + earlier.channel.sampleIndexOffset = i :=
    Nat.sub_add_cancel (by omega)
  have hsame : later.rawSample (i - earlier.channel.sampleIndexOffset) =
      earlier.rawSample (i - earlier.channel.sampleIndexOffset) := h.rawSample (by omega)
  exact hsame

omit [WaveArith α] [LawfulWaveScalar α] in
theorem Extends.appendSorted (h : Extends earlier later) {indices : List ℕ}
    (hindices : ∀ i ∈ indices, i < earlier.size) (result : List ℕ) :
    later.appendSorted result indices = earlier.appendSorted result indices := by
  have hsize := h.size_le
  unfold WaveQueryView.appendSorted
  apply List.foldl_ext
  intro result i hi
  have := hindices i (List.mem_insertionSort _ |>.mp hi)
  rw [if_neg (by omega), if_neg (by omega)]

omit [WaveArith α] [LawfulWaveScalar α] in
theorem Extends.addLocal (h : Extends earlier later) {index : ℕ} (hindex : index < earlier.size)
    (result : List ℕ) : later.addLocal result index = earlier.addLocal result index := by
  have hlater : index < later.size := hindex.trans_le h.size_le
  unfold WaveQueryView.addLocal
  simp only [hindex, hlater, true_and]

omit [LawfulWaveScalar α] in
theorem Extends.addSummary (h : Extends earlier later) {left right : ℕ} {s : WaveSummary α}
    (hs : Summarized earlier left right s) (hlt : left < right) (hsize : right ≤ earlier.size)
    (result : List ℕ) : later.addSummary result s = earlier.addSummary result s := by
  have hlater : later.addSummary result s =
      later.appendSorted result (earlier.summaryIndices s) := by
    unfold WaveQueryView.addSummary summaryIndices
    rw [if_neg hs.count, h.offset]
  rw [hlater, addSummary_eq hs]
  apply h.appendSorted
  intro i hi
  have := mem_summaryIndices hs hlt hi
  omega

end Extends

/-! ### Two runs of the loop -/

section OneBucket

variable {minTime width : α} {viewportBegin viewportEnd buckets left bucket : ℕ}

/-- A bucket that ends where the loop stands is skipped. -/
theorem stableBucket_skip (hmore : bucket + 1 < buckets) (hend : left ≤ viewportEnd)
    (hborder : view.bound (boundary minTime width bucket) false ≤ left) (result : List ℕ) :
    view.stableBucket minTime width viewportBegin viewportEnd buckets (left, result) bucket =
      (left, result) := by
  rcases Nat.eq_or_lt_of_le hend with heq | hlt
  · exact stableBucket_done (Nat.le_of_eq heq.symm) bucket
  · rw [stableBucket_eq result hlt]
    dsimp only
    have hright : view.bucketRight minTime width viewportEnd buckets left bucket = left := by
      unfold bucketRight
      rw [if_pos hmore, clampIndex_eq _ hend]
      omega
    rw [if_pos hright]

/-- A bucket that ends inside the window and before the newest sample is closed. -/
theorem stableBucket_closed {border : ℕ} (hmore : bucket + 1 < buckets)
    (hborder : view.bound (boundary minTime width bucket) false = border) (hlt : left < border)
    (hend : border ≤ viewportEnd) (hnewest : border < view.size) (result : List ℕ) :
    view.stableBucket minTime width viewportBegin viewportEnd buckets (left, result) bucket =
      (border, view.addSummary result
        (view.summary (withNeighbour viewportBegin left) border)) := by
  have hright : view.bucketRight minTime width viewportEnd buckets left bucket = border := by
    unfold bucketRight
    rw [if_pos hmore, clampIndex_eq _ (by omega), hborder]
    omega
  rw [stableBucket_eq result (by omega), hright]
  dsimp only
  rw [if_neg (by omega), if_neg (by omega)]

end OneBucket

section TwoRuns

variable [LawfulWaveOrder α] {earlier later : WaveQueryView α} {minTime width : α}
  {viewportBegin firstEnd secondEnd buckets : ℕ}

/-- Both runs have left the buckets they share; `left` is where the last of these ends, and
no border up to sample `shared - 1` comes after it. -/
structure Parted (later : WaveQueryView α) (minTime width : α)
    (viewportBegin shared buckets left : ℕ) (common : List ℕ) (first second : ℕ × List ℕ) :
    Prop where
  begin_le : viewportBegin ≤ left
  reached : left ≤ first.1
  extra : ∃ extra, first.2 = common ++ extra ∧ ∀ i ∈ extra, left ≤ i
  common : common <+: second.2
  passed : ∃ last, (∀ k < last, later.bound (boundary minTime width k) false ≤ left) ∧
    (last + 1 < buckets → shared ≤ later.bound (boundary minTime width last) false)

/-- Both runs stand at the same state, or they have parted. -/
inductive Lockstep (later : WaveQueryView α) (minTime width : α)
    (viewportBegin shared buckets n : ℕ) : ℕ × List ℕ → ℕ × List ℕ → Prop where
  | together (left : ℕ) (result : List ℕ) (hn : n < buckets) (hle : left ≤ shared)
      (hpassed : ∀ k < n, later.bound (boundary minTime width k) false ≤ left) :
      Lockstep later minTime width viewportBegin shared buckets n (left, result) (left, result)
  | parted (left : ℕ) (common : List ℕ) (first second : ℕ × List ℕ)
      (h : Parted later minTime width viewportBegin shared buckets left common first second) :
      Lockstep later minTime width viewportBegin shared buckets n first second

/-- **One bucket keeps the two runs in step.**  The bucket is skipped by both, closed by
both, or it is the one of the last sample that both show. -/
theorem Lockstep.step (h : Extends earlier later) (hearlier : earlier.channel.Synced)
    (hlater : later.channel.Synced) (htimes : later.TimesAscend)
    (hfirstEnd : firstEnd ≤ earlier.size) (hsecondEnd : secondEnd ≤ later.size)
    {n : ℕ} {first second : ℕ × List ℕ}
    (hfirst : BucketState viewportBegin firstEnd n first)
    (hsecond : BucketState viewportBegin secondEnd n second)
    (hstep : Lockstep later minTime width viewportBegin (min firstEnd secondEnd) buckets n first second) :
    Lockstep later minTime width viewportBegin (min firstEnd secondEnd) buckets (n + 1)
      (earlier.stableBucket minTime width viewportBegin firstEnd buckets first n)
      (later.stableBucket minTime width viewportBegin secondEnd buckets second n) := by
  obtain ⟨hreached, extra, hextra, hfrom⟩ :=
    @BucketState.grown _ _ earlier _ hearlier minTime width _ _ buckets _ _ hfirstEnd hfirst n
  obtain ⟨-, more, hmore, -⟩ :=
    @BucketState.grown _ _ later _ hlater minTime width _ _ buckets _ _ hsecondEnd hsecond n
  cases hstep with
  | parted left common first second hparted =>
    obtain ⟨hbegin, hleft, ⟨before, hbefore, hbeforeFrom⟩, hcommon, hpassed⟩ := hparted
    refine .parted left common _ _
      ⟨hbegin, hleft.trans hreached, ⟨before ++ extra, ?_, ?_⟩, ?_, hpassed⟩
    · rw [hextra, hbefore, List.append_assoc]
    · intro i hi
      rcases List.mem_append.mp hi with hi | hi
      · exact hbeforeFrom i hi
      · exact hleft.trans (hfrom i hi)
    · rw [hmore]
      exact hcommon.trans (List.prefix_append _ _)
  | together left result hn hle hpassed =>
    have hbound := h.bound htimes (boundary minTime width n) false
    have hsize := h.size_le
    have hparts : (n + 1 < buckets →
          min firstEnd secondEnd ≤ later.bound (boundary minTime width n) false) →
        Lockstep later minTime width viewportBegin (min firstEnd secondEnd) buckets (n + 1)
          (earlier.stableBucket minTime width viewportBegin firstEnd buckets (left, result) n)
          (later.stableBucket minTime width viewportBegin secondEnd buckets (left, result) n) := by
      intro hlast
      exact .parted left result _ _
        ⟨hfirst.begin_le, hreached, ⟨extra, hextra, hfrom⟩, ⟨more, hmore.symm⟩, n, hpassed, hlast⟩
    by_cases hnext : n + 1 < buckets
    · rcases Nat.lt_or_ge left (later.bound (boundary minTime width n) false) with hlt | hskip
      · by_cases hcloses : later.bound (boundary minTime width n) false ≤ min firstEnd secondEnd ∧
            later.bound (boundary minTime width n) false < earlier.size
        · -- the bucket ends at the same position in both runs
          obtain ⟨hend, hnewest⟩ := hcloses
          have hneighbour : withNeighbour viewportBegin left ≤ left := by
            unfold withNeighbour
            split <;> omega
          rw [stableBucket_closed hnext (by omega) hlt (by omega) hnewest,
            stableBucket_closed hnext rfl hlt (by omega) (by omega),
            h.summary hearlier hlater (by omega) (by omega)]
          have hs := @summary_summarized _ _ earlier (withNeighbour viewportBegin left)
            (later.bound (boundary minTime width n) false) _ hearlier (by omega) (by omega)
          rw [h.addSummary hs (by omega) (by omega)]
          refine .together _ _ hnext hend ?_
          intro k hk
          rcases Nat.lt_succ_iff_lt_or_eq.mp hk with hk | rfl
          · exact (hpassed k hk).trans hlt.le
          · exact Nat.le_refl _
        · exact hparts fun _ => by omega
      · -- both skip the bucket
        rw [stableBucket_skip hnext (by omega) (by omega), stableBucket_skip hnext (by omega) hskip]
        refine .together left result hnext hle ?_
        intro k hk
        rcases Nat.lt_succ_iff_lt_or_eq.mp hk with hk | rfl
        · exact hpassed k hk
        · exact hskip
    · exact hparts fun hlast => absurd hlast hnext

theorem Lockstep.run (h : Extends earlier later) (hearlier : earlier.channel.Synced)
    (hlater : later.channel.Synced) (htimes : later.TimesAscend)
    (hfirstEnd : firstEnd ≤ earlier.size) (hsecondEnd : secondEnd ≤ later.size)
    (hfirst : viewportBegin ≤ firstEnd) (hsecond : viewportBegin ≤ secondEnd) {guard : List ℕ}
    (hguard : Collected viewportBegin 0 guard) (hbuckets : 0 < buckets) (n : ℕ) :
    Lockstep later minTime width viewportBegin (min firstEnd secondEnd) buckets n
      ((List.range n).foldl
        (earlier.stableBucket minTime width viewportBegin firstEnd buckets) (viewportBegin, guard))
      ((List.range n).foldl
        (later.stableBucket minTime width viewportBegin secondEnd buckets)
        (viewportBegin, guard)) := by
  induction n with
  | zero =>
    exact .together viewportBegin guard hbuckets (Nat.le_min.mpr ⟨hfirst, hsecond⟩)
      (fun k hk => absurd hk (Nat.not_lt_zero k))
  | succ n ih =>
    have hfirstState := @BucketState.run _ _ earlier _ hearlier minTime width _ _ buckets _
      hfirstEnd hfirst hguard n
    have hsecondState := @BucketState.run _ _ later _ hlater minTime width _ _ buckets _ hsecondEnd
      hsecond hguard n
    rw [List.range_succ, List.foldl_append, List.foldl_append]
    exact ih.step h hearlier hlater htimes hfirstEnd hsecondEnd hfirstState hsecondState

/-- **A bucket of samples that both runs have, and that the newest does not belong to, is the
same in both.** -/
theorem stableBucket_same (h : Extends earlier later) (hearlier : earlier.channel.Synced)
    (hlater : later.channel.Synced) (htimes : later.TimesAscend)
    {viewportEnd : ℕ} (hend : viewportEnd < earlier.size) {state : ℕ × List ℕ} (hbegin : viewportBegin ≤ state.1)
    (bucket : ℕ) :
    later.stableBucket minTime width viewportBegin viewportEnd buckets state bucket =
      earlier.stableBucket minTime width viewportBegin viewportEnd buckets state bucket := by
  obtain ⟨left, result⟩ := state
  dsimp only at hbegin
  rcases Nat.lt_or_ge left viewportEnd with hlt | hge
  · have hsize := h.size_le
    have hbound := h.bound htimes (boundary minTime width bucket) false
    have hright : later.bucketRight minTime width viewportEnd buckets left bucket =
        earlier.bucketRight minTime width viewportEnd buckets left bucket := by
      unfold bucketRight
      rw [clampIndex_eq _ hlt.le, clampIndex_eq _ hlt.le]
      split
      · omega
      · rfl
    obtain ⟨hleft, hright'⟩ := @bucketRight_bounds _ _ earlier minTime width viewportEnd buckets left
      bucket hlt.le
    rw [stableBucket_eq result hlt, stableBucket_eq result hlt, hright]
    dsimp only
    by_cases hskip : earlier.bucketRight minTime width viewportEnd buckets left bucket = left
    · rw [if_pos hskip, if_pos hskip]
    · have hneighbour : withNeighbour viewportBegin left ≤ left := by
        unfold withNeighbour
        split <;> omega
      rw [if_neg hskip, if_neg hskip, if_neg (by omega), if_neg (by omega),
        h.summary hearlier hlater (by omega) (by omega)]
      have hs := @summary_summarized _ _ earlier (withNeighbour viewportBegin left)
        (earlier.bucketRight minTime width viewportEnd buckets left bucket) _ hearlier
        (by omega) (by omega)
      rw [h.addSummary hs (by omega) (by omega)]
  · exact (if_pos hge).trans (if_pos hge).symm

theorem stableBuckets_same (h : Extends earlier later) (hearlier : earlier.channel.Synced)
    (hlater : later.channel.Synced) (htimes : later.TimesAscend)
    {viewportEnd : ℕ} (hend : viewportEnd < earlier.size) (hle : viewportBegin ≤ viewportEnd) {guard : List ℕ}
    (hguard : Collected viewportBegin 0 guard) (n : ℕ) :
    (List.range n).foldl (later.stableBucket minTime width viewportBegin viewportEnd buckets)
        (viewportBegin, guard) =
      (List.range n).foldl (earlier.stableBucket minTime width viewportBegin viewportEnd buckets)
        (viewportBegin, guard) := by
  induction n with
  | zero => rfl
  | succ n ih =>
    have hstate : BucketState viewportBegin viewportEnd n ((List.range n).foldl
        (earlier.stableBucket minTime width viewportBegin viewportEnd buckets)
        (viewportBegin, guard)) := BucketState.run hearlier hend.le hle hguard n
    rw [List.range_succ, List.foldl_append, List.foldl_append, ih]
    exact stableBucket_same h hearlier hlater htimes hend hstate.begin_le n

end TwoRuns

/-! ### The bucket that may still grow -/

/-- The borders of the buckets of a view, in order; none where the buckets have no width. -/
def bucketBorders (minTime maxTime : α) (budget : ℕ) : List α :=
  let buckets := (budget - 2) / 8
  let width := bucketWidth minTime maxTime buckets
  if lt zero width && isFinite width then
    (List.range (buckets - 1)).map (boundary minTime width)
  else []

/-- A position in the bucket of sample `last` or after it: of the borders up to that sample
none comes after the position. -/
structure InOpenBucket (view : WaveQueryView α) (borders : List α) (range : ℕ × ℕ) (last i : ℕ) :
    Prop where
  begin_le : range.1 ≤ i
  le_fin : i ≤ range.2
  passed : ∀ t ∈ borders.takeWhile fun t => !lt (view.time last) t, lt (view.time i) t = false

omit [WaveArith α] [LawfulWaveScalar α] in
theorem mem_takeWhile_range {p : α → Bool} {f : ℕ → α} {n last : ℕ}
    (hlast : last < n → p (f last) = false) {t : α}
    (ht : t ∈ ((List.range n).map f).takeWhile p) : ∃ k < last, t = f k := by
  have hat : ∀ (k : ℕ) (hk : k < (((List.range n).map f).takeWhile p).length),
      (((List.range n).map f).takeWhile p)[k] = f k := by
    intro k hk
    rw [(List.takeWhile_prefix p).getElem hk, List.getElem_map, List.getElem_range]
  obtain ⟨k, hk, rfl⟩ := List.getElem_of_mem ht
  refine ⟨k, ?_, hat k hk⟩
  by_contra hge
  have hlast' : last < (((List.range n).map f).takeWhile p).length := by omega
  have hheld : p (f last) = true := by
    rw [← hat last hlast']
    exact List.mem_takeWhile_imp (List.getElem_mem hlast')
  have hshort := (List.takeWhile_prefix (l := (List.range n).map f) p).length_le
  rw [List.length_map, List.length_range] at hshort
  rw [hlast (by omega)] at hheld
  cases hheld

section TwoViews

variable [LawfulWaveOrder α] {earlier later : WaveQueryView α}
  {minTime maxTime minTime' maxTime' : α} {viewportBegin firstEnd secondEnd budget : ℕ}
  {guard : List ℕ}

/-- **What the shared buckets gave comes first in both**, and the rest belongs to the bucket of
the last sample that both show. -/
theorem stableBody_closed (h : Extends earlier later) (hearlier : earlier.channel.Synced)
    (hlater : later.channel.Synced) (htimes : later.TimesAscend)
    (hfirstEnd : firstEnd ≤ earlier.size) (hsecondEnd : secondEnd ≤ later.size)
    (hfirst : viewportBegin < firstEnd) (hsecond : viewportBegin < secondEnd)
    (hbudget : 18 ≤ budget) (hguard : Collected viewportBegin 0 guard)
    (hwidth : bucketWidth minTime maxTime' ((budget - 2) / 8) =
      bucketWidth minTime maxTime ((budget - 2) / 8)) :
    ∃ closed opened,
      earlier.stableBody minTime maxTime viewportBegin firstEnd budget guard = closed ++ opened ∧
      closed <+: later.stableBody minTime maxTime' viewportBegin secondEnd budget guard ∧
      ∀ i ∈ opened, i < firstEnd ∧ earlier.InOpenBucket (bucketBorders minTime maxTime budget)
        (viewportBegin, firstEnd) (min firstEnd secondEnd - 1) i := by
  have hcollected := @stableBody_collected _ _ earlier _ hearlier minTime maxTime _ _ _ _ hfirst
    hfirstEnd hbudget hguard
  unfold stableBody at hcollected ⊢
  unfold bucketBorders
  dsimp only at hcollected ⊢
  rw [hwidth]
  generalize hbuckets : (budget - 2) / 8 = buckets at *
  generalize bucketWidth minTime maxTime buckets = width at *
  by_cases husable : (lt zero width && isFinite width) = true
  · rw [if_pos husable] at hcollected
    rw [if_pos husable, if_pos husable, if_pos husable]
    have hstep := @Lockstep.run _ _ _ _ earlier later minTime width viewportBegin firstEnd secondEnd
      buckets h hearlier hlater htimes hfirstEnd hsecondEnd hfirst.le hsecond.le guard hguard
      (by omega) buckets
    have hstate := @BucketState.run _ _ earlier _ hearlier minTime width viewportBegin firstEnd
      buckets guard hfirstEnd hfirst.le hguard buckets
    generalize (List.range buckets).foldl
      (earlier.stableBucket minTime width viewportBegin firstEnd buckets)
      (viewportBegin, guard) = first at *
    generalize (List.range buckets).foldl
      (later.stableBucket minTime width viewportBegin secondEnd buckets)
      (viewportBegin, guard) = second at *
    cases hstep with
    | together left result hn => exact absurd hn (Nat.lt_irrefl _)
    | parted left common first second hparted =>
      obtain ⟨hbegin, -, ⟨extra, hextra, hfrom⟩, hcommon, last, hpassed, hlast⟩ := hparted
      refine ⟨common, extra, hextra, hcommon, ?_⟩
      intro i hi
      have hle := hfrom i hi
      have hlt : i < firstEnd := hcollected.below i (by rw [hextra]; exact List.mem_append_right _ hi)
      refine ⟨hlt, ⟨hbegin.trans hle, hlt.le, ?_⟩⟩
      intro t ht
      have hstop : last < buckets - 1 →
          (!lt (earlier.time (min firstEnd secondEnd - 1)) (boundary minTime width last)) =
            false := by
        intro hmore
        have hborder := hlast (by omega)
        rw [← h.time (by omega), htimes.lt_bound (by omega)]
        rfl
      obtain ⟨k, hk, rfl⟩ := @mem_takeWhile_range _
        (fun t => !lt (earlier.time (min firstEnd secondEnd - 1)) t) (boundary minTime width) _ last
        hstop _ ht
      have hborder := hpassed k hk
      rw [← h.time (by omega)]
      exact htimes.bound_le (by omega) (by have := h.size_le; omega)
  · rw [if_neg husable] at hcollected
    rw [if_neg husable, if_neg husable, if_neg husable]
    -- without usable buckets the view is one bucket, and it may grow
    obtain ⟨opened, hopened, hfrom⟩ := oneBucket_grown hearlier hfirst hfirstEnd hguard
    obtain ⟨more, hmore, -⟩ := oneBucket_grown hlater hsecond hsecondEnd hguard
    refine ⟨guard, opened, hopened, ⟨more, hmore.symm⟩, ?_⟩
    intro i hi
    have hlt : i < firstEnd := by
      refine hcollected.below i ?_
      rw [hopened]
      exact List.mem_append_right _ hi
    exact ⟨hlt, hfrom i hi, hlt.le, fun t ht => by cases ht⟩

/-- Where the newest sample is behind the window, both runs give the same. -/
theorem stableBody_same (h : Extends earlier later) (hearlier : earlier.channel.Synced)
    (hlater : later.channel.Synced) (htimes : later.TimesAscend)
    {viewportEnd : ℕ} (hend : viewportEnd < earlier.size) (hlt : viewportBegin < viewportEnd)
    (hguard : Collected viewportBegin 0 guard) :
    later.stableBody minTime maxTime viewportBegin viewportEnd budget guard =
      earlier.stableBody minTime maxTime viewportBegin viewportEnd budget guard := by
  have hsize := h.size_le
  unfold stableBody
  dsimp only
  split
  · rw [stableBuckets_same h hearlier hlater htimes hend hlt.le hguard]
  · have hs := summary_summarized hearlier hlt hend.le
    rw [h.summary hearlier hlater hlt.le hend.le, h.addSummary hs hlt hend.le, if_neg (by simp; omega),
      if_neg (by simp; omega)]

omit [LawfulWaveOrder α] in
/-- A range above the budget is downsampled. -/
theorem traceIndices_stable {guards : Bool} (hbudget : 0 < budget)
    (hlimited : budget <
      (view.range minTime maxTime guards).2 - (view.range minTime maxTime guards).1) :
    view.traceIndices minTime maxTime budget guards .stableEdges =
      view.stableEdgeIndices (ordered minTime maxTime).1 (ordered minTime maxTime).2
        (view.range minTime maxTime guards).1 (view.range minTime maxTime guards).2 budget := by
  unfold traceIndices
  dsimp only
  rw [range_ordered, if_neg (by omega), if_neg (by omega)]

omit [LawfulWaveOrder α] in
/-- A downsampled range in the stable mode: what was collected, and the neighbour on the
right. -/
theorem traceIndices_body (hsync : view.channel.Synced) {guards : Bool} (hbudget : 18 ≤ budget)
    (hlimited : budget <
      (view.range minTime maxTime guards).2 - (view.range minTime maxTime guards).1) :
    let viewport := view.range minTime maxTime false
    let selected := view.range minTime maxTime guards
    viewport.1 < viewport.2 ∧ viewport.2 ≤ view.size ∧
      view.traceIndices minTime maxTime budget guards .stableEdges =
        let body := view.stableBody (ordered minTime maxTime).1 (ordered minTime maxTime).2
          viewport.1 viewport.2 budget (view.leftGuard selected.1 viewport.1)
        if viewport.2 < selected.2 then view.addLocal body viewport.2 else body := by
  have hsize : (view.range minTime maxTime false).2 ≤ view.size :=
    bound_le_size (ordered minTime maxTime).2 true
  have hlt : (view.range minTime maxTime false).1 < (view.range minTime maxTime false).2 := by
    unfold range at hlimited ⊢
    cases guards with
    | true =>
      simp only [Bool.true_and, Bool.false_and, Bool.false_eq_true, decide_eq_true_eq, if_false] at *
      split at hlimited <;> split at hlimited <;> omega
    | false =>
      simp only [Bool.false_and, Bool.false_eq_true, if_false] at *
      omega
  refine ⟨hlt, hsize, ?_⟩
  rw [traceIndices_stable (by omega) hlimited]
  exact stableEdgeIndices_body hsync (range_ordered minTime maxTime false) hlt hsize hbudget

omit [LawfulWaveScalar α] in
/-- The samples that both views show before the window agree in their place. -/
theorem range_begin_same (h : Extends earlier later) (htimes : later.TimesAscend) {guards : Bool}
    (hstart : (ordered minTime' maxTime').1 = (ordered minTime maxTime).1)
    (hlt : (earlier.range minTime maxTime false).1 < earlier.size) :
    (later.range minTime' maxTime' guards).1 = (earlier.range minTime maxTime guards).1 := by
  have hbound := h.bound htimes (ordered minTime maxTime).1 false
  have hsame : later.bound (ordered minTime maxTime).1 false =
      earlier.bound (ordered minTime maxTime).1 false := by
    have hlt : earlier.bound (ordered minTime maxTime).1 false < earlier.size := hlt
    omega
  unfold range
  rw [hstart, hsame]

/-- **Later samples leave the closed buckets alone.** -/
theorem traceIndices_closed (h : Extends earlier later) (hearlier : earlier.channel.Synced)
    (hlater : later.channel.Synced) (htimes : later.TimesAscend) {guards : Bool}
    (hbudget : 18 ≤ budget)
    (hstart : (ordered minTime' maxTime').1 = (ordered minTime maxTime).1)
    (hwidth : bucketWidth (ordered minTime' maxTime').1 (ordered minTime' maxTime').2
        ((budget - 2) / 8) =
      bucketWidth (ordered minTime maxTime).1 (ordered minTime maxTime).2 ((budget - 2) / 8))
    (hlimited : budget <
      (earlier.range minTime maxTime guards).2 - (earlier.range minTime maxTime guards).1)
    (hlimited' : budget <
      (later.range minTime' maxTime' guards).2 - (later.range minTime' maxTime' guards).1) :
    ∃ closed opened,
      earlier.traceIndices minTime maxTime budget guards .stableEdges = closed ++ opened ∧
      closed <+: later.traceIndices minTime' maxTime' budget guards .stableEdges ∧
      ∀ i ∈ opened, earlier.InOpenBucket
        (bucketBorders (ordered minTime maxTime).1 (ordered minTime maxTime).2 budget)
        (earlier.range minTime maxTime false)
        (min (earlier.range minTime maxTime false).2 (later.range minTime' maxTime' false).2 - 1)
        i := by
  obtain ⟨hfirst, hfirstEnd, hfirstBody⟩ := traceIndices_body hearlier hbudget hlimited
  obtain ⟨hsecond, hsecondEnd, hsecondBody⟩ := traceIndices_body hlater hbudget hlimited'
  have hbegin : ∀ guards, (later.range minTime' maxTime' guards).1 =
      (earlier.range minTime maxTime guards).1 :=
    fun guards => range_begin_same h htimes hstart (hfirst.trans_le hfirstEnd)
  have hguardSame : later.leftGuard (earlier.range minTime maxTime guards).1
        (earlier.range minTime maxTime false).1 =
      earlier.leftGuard (earlier.range minTime maxTime guards).1
        (earlier.range minTime maxTime false).1 := by
    unfold leftGuard
    split
    · exact h.addLocal (by omega) []
    · rfl
  have hguarded : (earlier.range minTime maxTime guards).2 ≤ earlier.size := by
    unfold range at hfirstEnd ⊢
    dsimp only at hfirstEnd ⊢
    simp only [Bool.false_and, Bool.false_eq_true, if_false] at hfirstEnd
    split
    · rename_i hmore
      simp only [Bool.and_eq_true, decide_eq_true_eq] at hmore
      omega
    · exact hfirstEnd
  rw [hbegin false] at hsecond
  rw [hbegin false, hbegin guards, hguardSame, hstart] at hsecondBody
  rw [hstart] at hwidth
  rw [hfirstBody, hsecondBody]
  obtain ⟨closed, opened, hbody, hcommon, hopened⟩ :=
    @stableBody_closed _ _ _ _ earlier later _ _ (ordered minTime' maxTime').2 _ _ _ budget _ h
      hearlier hlater htimes hfirstEnd hsecondEnd hfirst hsecond hbudget
      (leftGuard_collected (earlier.range minTime maxTime guards).1 _) hwidth
  have hneighbour : ∀ (view : WaveQueryView α) (body : List ℕ) (i fin : ℕ),
      ∃ extra, (if i < fin then view.addLocal body i else body) = body ++ extra ∧
        ∀ j ∈ extra, j = i ∧ i < fin := by
    intro view body i fin
    unfold addLocal
    split
    · split
      · exact ⟨[i], rfl, fun j hj => ⟨List.mem_singleton.mp hj, ‹i < fin›⟩⟩
      · exact ⟨[], (List.append_nil _).symm, by simp⟩
    · exact ⟨[], (List.append_nil _).symm, by simp⟩
  dsimp only
  obtain ⟨extra, hextra, hbehind⟩ := hneighbour earlier (earlier.stableBody (ordered minTime maxTime).1
    (ordered minTime maxTime).2 (earlier.range minTime maxTime false).1
    (earlier.range minTime maxTime false).2 budget
    (earlier.leftGuard (earlier.range minTime maxTime guards).1
      (earlier.range minTime maxTime false).1)) (earlier.range minTime maxTime false).2
    (earlier.range minTime maxTime guards).2
  obtain ⟨more, hmore, -⟩ := hneighbour later (later.stableBody (ordered minTime maxTime).1
    (ordered minTime' maxTime').2 (earlier.range minTime maxTime false).1
    (later.range minTime' maxTime' false).2 budget
    (earlier.leftGuard (earlier.range minTime maxTime guards).1
      (earlier.range minTime maxTime false).1)) (later.range minTime' maxTime' false).2
    (later.range minTime' maxTime' guards).2
  rw [hextra, hmore, hbody]
  refine ⟨closed, opened ++ extra, List.append_assoc _ _ _,
    hcommon.trans (List.prefix_append _ _), ?_⟩
  intro i hi
  rcases List.mem_append.mp hi with hi | hi
  · exact (hopened i hi).2
  · -- the neighbour on the right comes after every sample of the window
    obtain ⟨rfl, hlt⟩ := hbehind i hi
    refine ⟨hfirst.le, Nat.le_refl _, ?_⟩
    intro t ht
    have hpassed := List.mem_takeWhile_imp ht
    rw [Bool.eq_false_iff]
    intro hbefore
    rw [LawfulWaveOrder.lt_of_le_of_lt
      ((htimes.of_extends h) _ _ (by omega) (by omega)) hbefore] at hpassed
    cases hpassed

/-- Where the newest sample is behind the window, no bucket of the window can grow. -/
theorem traceIndices_same (h : Extends earlier later) (hearlier : earlier.channel.Synced)
    (hlater : later.channel.Synced) (htimes : later.TimesAscend) {guards : Bool}
    (hbudget : 18 ≤ budget)
    (hlimited : budget <
      (earlier.range minTime maxTime guards).2 - (earlier.range minTime maxTime guards).1)
    (hbehind : (earlier.range minTime maxTime false).2 < earlier.size) :
    later.traceIndices minTime maxTime budget guards .stableEdges =
      earlier.traceIndices minTime maxTime budget guards .stableEdges := by
  obtain ⟨hlt, hend, hbody⟩ := traceIndices_body hearlier hbudget hlimited
  have hbegin : ∀ guards, (later.range minTime maxTime guards).1 =
      (earlier.range minTime maxTime guards).1 :=
    fun guards => range_begin_same h htimes rfl (hlt.trans hbehind)
  have hsize := h.size_le
  have hfin : ∀ guards, (later.range minTime maxTime guards).2 =
      (earlier.range minTime maxTime guards).2 := by
    intro guards
    have hbound := h.bound htimes (ordered minTime maxTime).2 true
    have hin : earlier.bound (ordered minTime maxTime).2 true < earlier.size := hbehind
    have hsame : later.bound (ordered minTime maxTime).2 true =
        earlier.bound (ordered minTime maxTime).2 true := by omega
    unfold range
    dsimp only
    rw [hsame]
    cases guards with
    | true => simp only [Bool.true_and, decide_eq_true hin, decide_eq_true (hin.trans_le hsize)]
    | false => rfl
  obtain ⟨-, -, hbody'⟩ := @traceIndices_body _ _ _ later minTime maxTime budget hlater guards hbudget
    (by rw [hbegin, hfin]; exact hlimited)
  rw [hbody, hbody']
  simp only [hbegin, hfin]
  have hguardSame : later.leftGuard (earlier.range minTime maxTime guards).1
        (earlier.range minTime maxTime false).1 =
      earlier.leftGuard (earlier.range minTime maxTime guards).1
        (earlier.range minTime maxTime false).1 := by
    unfold leftGuard
    split
    · exact h.addLocal (by omega) []
    · rfl
  rw [hguardSame, stableBody_same h hearlier hlater htimes hbehind hlt (leftGuard_collected _ _),
    h.addLocal hbehind]

omit [LawfulWaveScalar α] in
/-- A window that ends no earlier shows all that both show. -/
theorem range_end_le (h : Extends earlier later) (htimes : later.TimesAscend)
    (hend : le (ordered minTime maxTime).2 (ordered minTime' maxTime').2 = true) :
    (earlier.range minTime maxTime false).2 ≤ (later.range minTime' maxTime' false).2 := by
  have hbound := h.bound htimes (ordered minTime maxTime).2 true
  have hmono := @bound_mono _ _ later _ _ _ hend
  have hfirst : (earlier.range minTime maxTime false).2 =
      earlier.bound (ordered minTime maxTime).2 true := rfl
  have hsecond : (later.range minTime' maxTime' false).2 =
      later.bound (ordered minTime' maxTime').2 true := rfl
  omega

end TwoViews

end WaveQueryView

/-- Appending keeps the samples and their global indices. -/
theorem SampleWindow.run_appends {α : Type} [WaveScalar α] (steps : List (WindowStep α))
    (appends : List (List (WaveSample α) × Bool)) :
    (∃ appended, (run (steps ++ appends.map fun append => .slide 0 append.1 append.2)).samples =
        (run steps).samples ++ appended) ∧
      (run (steps ++ appends.map fun append => .slide 0 append.1 append.2)).offset =
        (run steps).offset := by
  unfold run
  rw [List.foldl_append]
  generalize steps.foldl step {} = window
  induction appends generalizing window with
  | nil => exact ⟨⟨[], (List.append_nil _).symm⟩, rfl⟩
  | cons append appends ih =>
    rw [List.map_cons, List.foldl_cons]
    obtain ⟨⟨appended, happended⟩, hoffset⟩ := ih (window.step (.slide 0 append.1 append.2))
    refine ⟨⟨append.1 ++ appended, ?_⟩, ?_⟩
    · rw [happended, ← List.append_assoc]
      rfl
    · rw [hoffset]
      simp [step]

open WaveQueryView

/-- A channel whose samples are all zero at time zero. -/
def zeroView (steps : List (WindowStep Float)) : WaveQueryView Float where
  channel := (run steps).channel true (Float.ofBits 0) (Float.ofBits 0) (Float.ofBits 0)
  axis := .scriptTime
  frequency := Float.ofBits 0
  formula := .offsetThenScale

theorem zeroView_ascends {steps : List (WindowStep Float)} {n : ℕ}
    (h : (run steps).samples = List.replicate n default) :
    (zeroView steps).TimesAscend := by
  have htime : ∀ i, (zeroView steps).time i = Float.ofBits 0 := by
    intro i
    have hraw : (zeroView steps).rawSample i = default := by
      unfold rawSample zeroView SampleWindow.channel
      rw [h, List.getD_eq_getElem?_getD, List.getElem?_replicate]
      split <;> rfl
    exact congrArg WaveSample.time hraw
  intro i j _ _
  rw [htime, htime]
  rfl

end ProtoScope.Plot
