/-
What is drawn of one bit.

Segments lead from one time and state to another when each starts where the one before it
ended, in time and in state.  Where there are few enough edges each is drawn, together with
those that fall into the same pixel; otherwise the window is cut into buckets of equal
width, and a bucket with more than one edge is drawn as activity.  Either way every edge is
marked, and what is drawn leads from the first sample in the window, or its start, to its
end.
-/
import ProtoScope.Proofs.Plot.BitEdges
import ProtoScope.Proofs.Plot.PrunedSearch

namespace ProtoScope.Plot

open ProtoScope.Library
open WaveScalar

/-! ### Segments -/

section Segments

variable {t t' : ℚ} {state state' : Bool} {segments : List (WaveDigitalSegment ℚ)}
  {segment : WaveDigitalSegment ℚ}

/-- The segments lead from time `t` in `state` to time `t'` in `state'`, without gap, overlap
or jump. -/
def Leads (t : ℚ) (state : Bool) : List (WaveDigitalSegment ℚ) → ℚ → Bool → Prop
  | [], t', state' => t' = t ∧ state' = state
  | segment :: rest, t', state' =>
    segment.beginTime = t ∧ segment.firstState = state ∧ t ≤ segment.endTime ∧
      Leads segment.endTime segment.lastState rest t' state'

/-- A segment marks the time of an edge: it shows activity or a change of state there. -/
def Marked (segments : List (WaveDigitalSegment ℚ)) (t : ℚ) : Prop :=
  ∃ segment ∈ segments, (segment.beginTime ≤ t ∧ t ≤ segment.endTime) ∧
    (segment.activity = true ∨ segment.firstState ≠ segment.lastState)

/-- No segment shows activity. -/
def Calm (segments : List (WaveDigitalSegment ℚ)) : Prop :=
  ∀ segment ∈ segments, segment.activity = false

theorem leads_snoc :
    Leads t state (segments ++ [segment]) t' state' ↔
      Leads t state segments segment.beginTime segment.firstState ∧
        segment.beginTime ≤ segment.endTime ∧ t' = segment.endTime ∧
        state' = segment.lastState := by
  induction segments generalizing t state with
  | nil =>
    rw [List.nil_append]
    unfold Leads
    constructor
    · rintro ⟨rfl, rfl, hle, ht, hstate⟩
      exact ⟨⟨rfl, rfl⟩, hle, ht, hstate⟩
    · rintro ⟨⟨rfl, rfl⟩, hle, ht, hstate⟩
      exact ⟨rfl, rfl, hle, ht, hstate⟩
  | cons head rest ih =>
    rw [List.cons_append]
    simp only [Leads]
    rw [ih]
    tauto

/-- What appending a segment to those before gives. -/
structure Appended (before : List (WaveDigitalSegment ℚ)) (segment : WaveDigitalSegment ℚ)
    (after : List (WaveDigitalSegment ℚ)) : Prop where
  leads : ∀ {t state}, Leads t state before segment.beginTime segment.firstState →
    segment.beginTime ≤ segment.endTime →
    Leads t state after segment.endTime segment.lastState
  kept : ∀ {t}, Marked before t → Marked after t
  marked : ∀ {t}, segment.beginTime ≤ t → t ≤ segment.endTime →
    (segment.activity = true ∨ segment.firstState ≠ segment.lastState) → Marked after t
  calm : Calm before → segment.activity = false → Calm after
  length : after.length ≤ before.length + 1
  nonempty : after ≠ []

/-- **Appending a segment** draws it, or prolongs the one before where neither changes. -/
theorem appendSegment_appended (before : List (WaveDigitalSegment ℚ))
    (segment : WaveDigitalSegment ℚ) :
    Appended before segment (WaveQueryView.appendSegment before segment) := by
  have hpush : Appended before segment (before ++ [segment]) := by
    refine ⟨?_, ?_, ?_, ?_, ?_, ?_⟩
    · intro t state h hle
      exact leads_snoc.mpr ⟨h, hle, rfl, rfl⟩
    · rintro t ⟨marking, hmem, hmarks⟩
      exact ⟨marking, List.mem_append_left _ hmem, hmarks⟩
    · intro t hbegin hend hmarks
      exact ⟨segment, List.mem_append_right _ List.mem_cons_self, ⟨hbegin, hend⟩, hmarks⟩
    · intro h hcalm drawn hmem
      rcases List.mem_append.mp hmem with hmem | hmem
      · exact h drawn hmem
      · exact List.mem_singleton.mp hmem ▸ hcalm
    · rw [List.length_append, List.length_singleton]
    · simp
  unfold WaveQueryView.appendSegment
  split
  · rename_i last hlast
    split
    · rename_i hmerge
      simp only [Bool.and_eq_true, Bool.not_eq_true', beq_iff_eq, eq, decide_eq_true_eq] at hmerge
      obtain ⟨⟨⟨⟨⟨hquiet, hlastQuiet⟩, hconstant⟩, hfirst⟩, hlastState⟩, htime⟩ := hmerge
      obtain ⟨front, rfl⟩ := List.getLast?_eq_some_iff.mp hlast
      rw [List.dropLast_concat]
      refine ⟨?_, ?_, ?_, ?_, ?_, ?_⟩
      · intro t state h hle
        obtain ⟨hfront, hlastLe, -, -⟩ := leads_snoc.mp h
        refine leads_snoc.mpr ⟨hfront, ?_, rfl, ?_⟩
        · exact hlastLe.trans (htime.le.trans hle)
        · rw [← hconstant, hlastState]
      · rintro t ⟨marking, hmem, hinside, hmarks⟩
        rcases List.mem_append.mp hmem with hmem | hmem
        · exact ⟨marking, List.mem_append_left _ hmem, hinside, hmarks⟩
        · -- the prolonged segment marked nothing
          obtain rfl := List.mem_singleton.mp hmem
          rw [hlastQuiet, hfirst, hlastState] at hmarks
          simp at hmarks
      · intro t hbegin hend hmarks
        rw [hquiet, hconstant] at hmarks
        simp at hmarks
      · intro h hcalm drawn hmem
        rcases List.mem_append.mp hmem with hmem | hmem
        · exact h drawn (List.mem_append_left _ hmem)
        · rw [List.mem_singleton.mp hmem]
          exact hlastQuiet
      · rw [List.length_append, List.length_append, List.length_singleton, List.length_singleton]
        omega
      · simp
    · exact hpush
  · exact hpush

end Segments

namespace WaveQueryView

variable {view : WaveQueryView ℚ} {bit : Fin 64} {minTime maxTime pixelTime start : ℚ}
  {initial : Bool}

/-! ### Drawing the edges one by one -/

/-- What drawing the edges of `[left, right)` after the segments `before` gives. -/
structure EdgesDrawn (view : WaveQueryView ℚ) (bit : Fin 64) (start : ℚ) (initial : Bool)
    (left right : ℕ) (before : List (WaveDigitalSegment ℚ)) (t : ℚ)
    (out : ℚ × Bool × List (WaveDigitalSegment ℚ)) : Prop where
  leads : Leads start initial out.2.2 out.1 out.2.1
  state : out.2.1 = view.bitState bit (right - 1)
  until_le : ∀ {limit}, t ≤ limit → (∀ i ∈ view.edgesIn bit left right, view.time i ≤ limit) →
    out.1 ≤ limit
  marked : ∀ i ∈ view.edgesIn bit left right, Marked out.2.2 (view.time i)
  kept : ∀ {x}, Marked before x → Marked out.2.2 x
  length : out.2.2.length ≤ before.length + 2 * (view.edgesIn bit left right).length
  none : view.edgesIn bit left right = [] → out.2.2 = before

/-- The edges of one pixel and the stretch before them. -/
theorem drawGroup (htimes : view.TimesAscend) {left right first : ℕ} {group rest : List ℕ}
    {t : ℚ} {before : List (WaveDigitalSegment ℚ)} (hright : right ≤ view.size)
    (hedges : view.edgesIn bit left right = first :: (group ++ rest))
    (hleads : Leads start initial before t (view.bitState bit (left - 1)))
    (ht : ∀ i ∈ view.edgesIn bit left right, t ≤ view.time i) :
    let last := group.getLastD first
    let current := view.bitState bit (left - 1)
    let stretch := if lt t (view.time first) then
        appendSegment before ⟨t, view.time first, current, current, false⟩ else before
    let after := appendSegment stretch
      ⟨view.time first, view.time last, current, view.bitState bit last, last != first⟩
    Leads start initial after (view.time last) (view.bitState bit last) ∧
      (∀ i ∈ first :: group, Marked after (view.time i)) ∧
      (∀ {x}, Marked before x → Marked after x) ∧ after.length ≤ before.length + 2 := by
  obtain ⟨-, hlast, -, hgroup⟩ := edgesIn_group group first left hedges
  obtain ⟨hfirst, hchange, -⟩ := edgesIn_cons hedges
  have hafterT : t ≤ view.time first := ht first (hedges ▸ List.mem_cons_self)
  have hspan : view.time first ≤ view.time (group.getLastD first) :=
    htimes.le_time (hgroup first List.mem_cons_self).2 (hlast.trans_le hright)
  intro last current stretch after
  have hstretch : Leads start initial stretch (view.time first) current ∧
      (∀ {x}, Marked before x → Marked stretch x) ∧ stretch.length ≤ before.length + 1 := by
    by_cases hbefore : t < view.time first
    · have hstretch : stretch =
          appendSegment before ⟨t, view.time first, current, current, false⟩ :=
        if_pos (decide_eq_true hbefore)
      have happended := appendSegment_appended before
        ⟨t, view.time first, current, current, false⟩
      rw [hstretch]
      exact ⟨happended.leads hleads hafterT, happended.kept, happended.length⟩
    · have hstretch : stretch = before := if_neg (by simpa [lt] using hbefore)
      have heq : t = view.time first := le_antisymm hafterT (not_lt.mp hbefore)
      rw [hstretch, ← heq]
      exact ⟨hleads, fun h => h, Nat.le_succ _⟩
  obtain ⟨hstretchLeads, hstretchKept, hstretchLength⟩ := hstretch
  have happended := appendSegment_appended stretch
    ⟨view.time first, view.time last, current, view.bitState bit last, last != first⟩
  refine ⟨happended.leads hstretchLeads hspan, ?_, fun h => happended.kept (hstretchKept h), ?_⟩
  · intro i hi
    obtain ⟨hle, hleLast⟩ := hgroup i hi
    have hlastSize : last < view.size := hlast.trans_le hright
    refine happended.marked (htimes.le_time hle (hleLast.trans_lt hlastSize))
      (htimes.le_time hleLast hlastSize) ?_
    by_cases hone : last = first
    · refine .inr ?_
      dsimp only
      rw [hone]
      exact hchange.symm
    · exact .inl (bne_iff_ne.mpr hone)
  · have hlength : after.length ≤ stretch.length + 1 := happended.length
    omega

theorem emitEdges_drawn (htimes : view.TimesAscend) {right : ℕ} (hright : right ≤ view.size) :
    ∀ (fuel left : ℕ) (t : ℚ) (before : List (WaveDigitalSegment ℚ)),
      (view.edgesIn bit left right).length ≤ fuel → left ≤ right →
      Leads start initial before t (view.bitState bit (left - 1)) →
      (∀ i ∈ view.edgesIn bit left right, t ≤ view.time i) →
      EdgesDrawn view bit start initial left right before t
        (view.emitEdges bit minTime pixelTime fuel (view.edgesIn bit left right) t
          (view.bitState bit (left - 1)) before) := by
  have hdone : ∀ {left : ℕ} {t : ℚ} {before : List (WaveDigitalSegment ℚ)}, left ≤ right →
      view.edgesIn bit left right = [] →
      Leads start initial before t (view.bitState bit (left - 1)) →
      EdgesDrawn view bit start initial left right before t
        (t, view.bitState bit (left - 1), before) := by
    intro left t before hle hnone hleads
    refine ⟨hleads, ?_, fun ht _ => ht, ?_, fun h => h, Nat.le_add_right _ _, fun _ => rfl⟩
    · rcases Nat.eq_or_lt_of_le hle with rfl | hlt
      · rfl
      · exact (state_of_no_edge hnone (right - 1) (by omega) (by omega)).symm
    · rw [hnone]
      intro i hi
      cases hi
  intro fuel
  induction fuel with
  | zero =>
    intro left t before hfuel hle hleads _
    exact hdone hle (List.length_eq_zero_iff.mp (Nat.le_zero.mp hfuel)) hleads
  | succ fuel ih =>
    intro left t before hfuel hle hleads ht
    cases hedges : view.edgesIn bit left right with
    | nil => exact hdone hle hedges hleads
    | cons first edges =>
      unfold emitEdges
      dsimp only
      generalize (fun i => eq (view.pixel minTime pixelTime i)
        (view.pixel minTime pixelTime first)) = same
      have hcut : view.edgesIn bit left right =
          first :: (edges.takeWhile same ++ edges.dropWhile same) := by
        rw [List.takeWhile_append_dropWhile, hedges]
      obtain ⟨hrest, hlast, hmem, hgroup⟩ := edgesIn_group (edges.takeWhile same) first left hcut
      obtain ⟨hgroupLeads, hmarked, hkept, hlength⟩ :=
        drawGroup htimes hright hcut hleads ht
      generalize (edges.takeWhile same).getLastD first = last at *
      have hfewer : (view.edgesIn bit (last + 1) right).length ≤ fuel := by
        rw [hcut, List.length_cons, List.length_append, hrest] at hfuel
        omega
      have hafter : ∀ i ∈ view.edgesIn bit (last + 1) right, view.time last ≤ view.time i := by
        intro i hi
        obtain ⟨hin, -⟩ := mem_edgesIn.mp hi
        exact htimes.le_time (by omega) (by omega)
      rw [hrest]
      generalize appendSegment _ ⟨view.time first, view.time last, _, _, _⟩ = after at *
      have hdrawn := ih (last + 1) (view.time last) after hfewer (by omega) hgroupLeads hafter
      rw [Nat.add_sub_cancel] at hdrawn
      have hin : ∀ i, i ∈ view.edgesIn bit left right ↔
          i ∈ first :: edges.takeWhile same ∨ i ∈ view.edgesIn bit (last + 1) right := by
        intro i
        rw [hcut, hrest, ← List.cons_append, List.mem_append]
      refine ⟨hdrawn.leads, hdrawn.state, ?_, ?_, fun h => hdrawn.kept (hkept h), ?_, ?_⟩
      · intro limit _ hlimit
        refine hdrawn.until_le (hlimit last ((hin last).mpr (.inl hmem))) ?_
        intro i hi
        exact hlimit i ((hin i).mpr (.inr hi))
      · intro i hi
        rcases (hin i).mp hi with hi | hi
        · exact hdrawn.kept (hmarked i hi)
        · exact hdrawn.marked i hi
      · have hrestLength := hdrawn.length
        rw [hcut, List.length_cons, List.length_append, hrest]
        omega
      · intro hnone
        rw [hedges] at hnone
        cases hnone

/-! ### Drawing a range -/

/-- What drawing the samples up to `right - 1` until time `t` gives, with at most `count` new
segments; the edges of `[left, right)` are those to mark. -/
structure RangeDrawn (view : WaveQueryView ℚ) (bit : Fin 64) (start : ℚ) (initial : Bool)
    (left right : ℕ) (t : ℚ) (count : ℕ) (before after : List (WaveDigitalSegment ℚ)) : Prop where
  leads : Leads start initial after t (view.bitState bit (right - 1))
  marked : ∀ i ∈ view.edgesIn bit left right, Marked after (view.time i)
  kept : ∀ {x}, Marked before x → Marked after x
  calm : view.edgesIn bit left right = [] → Calm before → Calm after
  length : after.length ≤ before.length + count

/-- **Few edges** are drawn one by one, and the stretch after the last one to the end. -/
theorem emitExact_drawn (htimes : view.TimesAscend) {left right : ℕ} {t0 t1 : ℚ}
    {before : List (WaveDigitalSegment ℚ)} (hle : left ≤ right) (hright : right ≤ view.size)
    (hleads : Leads start initial before t0 (view.bitState bit (left - 1))) (ht : t0 ≤ t1)
    (hedges : ∀ i ∈ view.edgesIn bit left right, t0 ≤ view.time i ∧ view.time i ≤ t1) :
    RangeDrawn view bit start initial left right t1
      (2 * (view.edgesIn bit left right).length + 1) before
      (view.emitExact bit minTime pixelTime (view.edgesIn bit left right) t0 t1
        (view.bitState bit (left - 1)) before) := by
  have hdrawn := @emitEdges_drawn view bit minTime pixelTime start initial htimes right hright
    (view.edgesIn bit left right).length left t0 before (Nat.le_refl _) hle hleads
    fun i hi => (hedges i hi).1
  unfold emitExact
  generalize view.emitEdges bit minTime pixelTime (view.edgesIn bit left right).length
    (view.edgesIn bit left right) t0 (view.bitState bit (left - 1)) before = out at hdrawn
  obtain ⟨t, current, drawn⟩ := out
  obtain ⟨hleads', hstate, huntil, hmarked, hkept, hlength, hnone⟩ := hdrawn
  dsimp only at hleads' hstate huntil hmarked hkept hlength hnone ⊢
  have hbefore : t ≤ t1 := huntil ht fun i hi => (hedges i hi).2
  subst hstate
  split
  · have happended := appendSegment_appended drawn
      ⟨t, t1, view.bitState bit (right - 1), view.bitState bit (right - 1), false⟩
    refine ⟨happended.leads hleads' hbefore, fun i hi => happended.kept (hmarked i hi),
      fun h => happended.kept (hkept h), ?_, ?_⟩
    · intro hedgeless hcalm
      exact happended.calm (hnone hedgeless ▸ hcalm) rfl
    · have := happended.length
      omega
  · rename_i hend
    have heq : t = t1 := by
      simp only [Bool.or_eq_true, lt, decide_eq_true_eq, not_or, not_lt] at hend
      exact le_antisymm hbefore hend.1
    refine ⟨heq ▸ hleads', hmarked, hkept, ?_, by omega⟩
    intro hedgeless hcalm
    exact hnone hedgeless ▸ hcalm

/-- **Many edges** are drawn as activity. -/
theorem activity_drawn (hsync : view.channel.Synced) {left right : ℕ} {t0 t1 : ℚ}
    {before : List (WaveDigitalSegment ℚ)} (hlt : left < right) (hright : right ≤ view.size)
    (hleads : Leads start initial before t0 (view.bitState bit left)) (ht : t0 ≤ t1)
    (hedges : ∀ i ∈ view.edgesIn bit (left + 1) right, t0 ≤ view.time i ∧ view.time i ≤ t1) :
    RangeDrawn view bit start initial (left + 1) right t1 1 before
      (appendSegment before ⟨t0, t1, view.bitState bit left, view.bitState bit (right - 1),
        !constantBit bit (view.summary left right)⟩) := by
  have happended := appendSegment_appended before
    ⟨t0, t1, view.bitState bit left, view.bitState bit (right - 1),
      !constantBit bit (view.summary left right)⟩
  have hconstant := constantBit_summary hsync hlt hright bit
  refine ⟨happended.leads hleads ht, ?_, happended.kept, ?_, happended.length⟩
  · intro i hi
    obtain ⟨hfrom, hto⟩ := hedges i hi
    refine happended.marked hfrom hto (.inl ?_)
    obtain ⟨hin, hne⟩ := mem_edgesIn.mp hi
    dsimp only
    rw [Bool.not_eq_true', Bool.eq_false_iff]
    intro hsame
    have hall := hconstant.mp hsame
    rw [hall i (by omega) hin.2, hall (i - 1) (by omega) (by omega)] at hne
    exact hne rfl
  · intro hedgeless hcalm
    refine happended.calm hcalm ?_
    dsimp only
    rw [Bool.not_eq_false', hconstant]
    intro i hi hlt
    exact state_of_no_edge hedgeless i (by omega) hlt

/-! ### The buckets -/

/-- When bucket `b` of `buckets` starts. -/
def bucketTime (start maxTime : ℚ) (buckets b : ℕ) : ℚ :=
  start + (maxTime - start) * b / buckets

theorem bucketTime_mono {buckets b c : ℕ} (hle : start ≤ maxTime) (hbc : b ≤ c) :
    bucketTime start maxTime buckets b ≤ bucketTime start maxTime buckets c := by
  unfold bucketTime
  have hspan : 0 ≤ maxTime - start := by linarith
  have hcast : (b : ℚ) ≤ c := Nat.cast_le.mpr hbc
  have hbuckets : (0 : ℚ) ≤ buckets := Nat.cast_nonneg _
  have := div_le_div_of_nonneg_right (mul_le_mul_of_nonneg_left hcast hspan) hbuckets
  linarith

theorem bucketTime_last {buckets : ℕ} (hbuckets : 0 < buckets) :
    bucketTime start maxTime buckets buckets = maxTime := by
  have hne : (buckets : ℚ) ≠ 0 := Nat.cast_ne_zero.mpr (by omega)
  unfold bucketTime
  rw [mul_div_cancel_right₀ _ hne]
  ring

/-- What the loop over the buckets has drawn when it stands at a state: the next bucket
starts at sample `state.1`, which the last one ended with. -/
structure BucketsDrawn (view : WaveQueryView ℚ) (bit : Fin 64) (start maxTime : ℚ)
    (begin fin budget buckets b : ℕ) (state : ℕ × List (WaveDigitalSegment ℚ)) : Prop where
  begin_le : begin ≤ state.1
  lt_fin : state.1 < fin
  leads : Leads start (view.bitState bit begin) state.2 (bucketTime start maxTime buckets b)
    (view.bitState bit state.1)
  later : ∀ i, state.1 < i → i < fin → bucketTime start maxTime buckets b ≤ view.time i
  marked : ∀ i ∈ view.edgesIn bit (begin + 1) (state.1 + 1), Marked state.2 (view.time i)
  calm : view.edgesIn bit (begin + 1) fin = [] → Calm state.2
  length : state.2.length ≤ (if 3 ≤ budget then 3 else 1) * b
  last : b = buckets → state.1 + 1 = fin

section Buckets

variable {begin fin budget buckets b : ℕ} {state : ℕ × List (WaveDigitalSegment ℚ)}

/-- Where a bucket ends: after the samples up to its time, and never before its second. -/
theorem bucketEnd (htimes : view.TimesAscend) {left : ℕ} {t : ℚ} (hlt : left < fin)
    (hfin : fin ≤ view.size) (hmax : ∀ i < fin, view.time i ≤ maxTime)
    (ht : b + 1 = buckets → t = maxTime) :
    let right := if b + 1 = buckets then fin
      else clampIndex (view.range t t false).1 (left + 1) fin
    (left < right ∧ right ≤ fin) ∧ (∀ i, left < i → i < right → view.time i ≤ t) ∧
      (∀ i, right ≤ i → i < fin → t ≤ view.time i) ∧ (b + 1 = buckets → right = fin) := by
  intro right
  by_cases hlast : b + 1 = buckets
  · have hright : right = fin := if_pos hlast
    rw [hright]
    refine ⟨⟨hlt, Nat.le_refl _⟩, ?_, fun i hi hlt => by omega, fun _ => rfl⟩
    intro i _ hi
    rw [ht hlast]
    exact hmax i hi
  · have hborder : (view.range t t false).1 = view.bound t false := by
      unfold range
      rw [ordered_eq, min_self]
      rfl
    have hright : right = clampIndex (view.bound t false) (left + 1) fin := by
      rw [← hborder]
      exact if_neg hlast
    have hclamp : right = max (left + 1) (min (view.bound t false) fin) := by
      rw [hright]
      unfold clampIndex
      split
      · omega
      · split <;> omega
    refine ⟨by omega, ?_, ?_, fun h => absurd h hlast⟩
    · intro i hi hlt
      exact ((htimes.before_iff (by omega)).mp (by omega : i < view.bound t false)).le
    · intro i hi hlt
      have hnot : ¬ i < view.bound t false := by omega
      rw [htimes.before_iff (by omega), not_lt] at hnot
      exact hnot

theorem digitalBucket_eq (left : ℕ) (drawn : List (WaveDigitalSegment ℚ)) :
    view.digitalBucket bit minTime pixelTime start maxTime fin budget buckets (left, drawn) b =
      let t0 := bucketTime start maxTime buckets b
      let t1 := bucketTime start maxTime buckets (b + 1)
      let right := if b + 1 = buckets then fin
        else clampIndex (view.range t1 t1 false).1 (left + 1) fin
      let found := view.findEdges bit 1 (right - (left + 1)) (left + 1) right []
      (right - 1,
        if decide (3 ≤ budget) && found.1 then
          view.emitExact bit minTime pixelTime found.2 t0 t1 (view.bitState bit left) drawn
        else
          appendSegment drawn ⟨t0, t1, view.bitState bit left, view.bitState bit (right - 1),
            !constantBit bit (view.summary left right)⟩) :=
  rfl

/-- **One bucket.** -/
theorem BucketsDrawn.step (hsync : view.channel.Synced) (htimes : view.TimesAscend)
    (hstart : start ≤ maxTime) (hfin : fin ≤ view.size) (hmax : ∀ i < fin, view.time i ≤ maxTime)
    (h : BucketsDrawn view bit start maxTime begin fin budget buckets b state) :
    BucketsDrawn view bit start maxTime begin fin budget buckets (b + 1)
      (view.digitalBucket bit minTime pixelTime start maxTime fin budget buckets state b) := by
  obtain ⟨left, drawn⟩ := state
  obtain ⟨hbegin, hlt, hleads, hlater, hmarked, hcalm, hlength, -⟩ := h
  dsimp only at hbegin hlt hleads hlater hmarked hcalm hlength
  have hspan : bucketTime start maxTime buckets b ≤ bucketTime start maxTime buckets (b + 1) :=
    bucketTime_mono hstart (Nat.le_succ b)
  have hend := @bucketEnd view maxTime fin buckets b htimes left
    (bucketTime start maxTime buckets (b + 1)) hlt hfin hmax
    fun hlast => by rw [hlast]; exact bucketTime_last (by omega)
  rw [digitalBucket_eq]
  dsimp only at hend ⊢
  generalize (if b + 1 = buckets then fin else clampIndex _ (left + 1) fin : ℕ) = right at hend ⊢
  obtain ⟨⟨hleft, hright⟩, hupto, hfrom, hlast⟩ := hend
  have hedges : ∀ i ∈ view.edgesIn bit (left + 1) right,
      bucketTime start maxTime buckets b ≤ view.time i ∧
        view.time i ≤ bucketTime start maxTime buckets (b + 1) := by
    intro i hi
    obtain ⟨hin, -⟩ := mem_edgesIn.mp hi
    exact ⟨hlater i (by omega) (by omega), hupto i (by omega) hin.2⟩
  have hsplit : view.edgesIn bit (begin + 1) right =
      view.edgesIn bit (begin + 1) (left + 1) ++ view.edgesIn bit (left + 1) right :=
    edgesIn_split (by omega) (by omega)
  have hbucket : ∀ after,
      RangeDrawn view bit start (view.bitState bit begin) (left + 1) right
        (bucketTime start maxTime buckets (b + 1)) (if 3 ≤ budget then 3 else 1) drawn after →
      BucketsDrawn view bit start maxTime begin fin budget buckets (b + 1) (right - 1, after) := by
    intro after hdrawn
    refine ⟨?_, ?_, hdrawn.leads, ?_, ?_, ?_, ?_, ?_⟩
    · exact hbegin.trans (Nat.le_sub_one_of_lt hleft)
    · dsimp only
      omega
    · intro i hi hlt
      dsimp only at hi
      exact hfrom i (by omega) hlt
    · dsimp only
      rw [Nat.sub_add_cancel (by omega), hsplit]
      intro i hi
      rcases List.mem_append.mp hi with hi | hi
      · exact hdrawn.kept (hmarked i hi)
      · exact hdrawn.marked i hi
    · intro hnone
      have hbefore := hcalm hnone
      rw [edgesIn_split (by omega : begin + 1 ≤ right) hright, hsplit, List.append_eq_nil_iff,
        List.append_eq_nil_iff] at hnone
      exact hdrawn.calm hnone.1.2 hbefore
    · have := hdrawn.length
      rw [Nat.mul_succ]
      dsimp only
      omega
    · intro hdone
      have := hlast hdone
      dsimp only
      omega
  have hfound := @findEdges_found _ _ view bit (left + 1) right _ hsync 1 (by omega)
    (hright.trans hfin)
  dsimp only at hfound
  generalize view.findEdges bit 1 (right - (left + 1)) (left + 1) right [] = found at hfound ⊢
  obtain ⟨hall, -⟩ := hfound
  apply hbucket
  by_cases hexact : (decide (3 ≤ budget) && found.1) = true
  · rw [if_pos hexact]
    obtain ⟨hthree, hok⟩ := Bool.and_eq_true_iff.mp hexact
    replace hthree := of_decide_eq_true hthree
    obtain ⟨heq, hone⟩ := hall hok
    rw [heq] at hone ⊢
    have hexactly := @emitExact_drawn view bit minTime pixelTime start (view.bitState bit begin)
      htimes (left + 1) right _ (bucketTime start maxTime buckets (b + 1)) drawn (by omega)
      (hright.trans hfin) hleads hspan hedges
    rw [Nat.add_sub_cancel] at hexactly
    have hcount := hexactly.length
    exact { hexactly with length := by rw [if_pos hthree]; omega }
  · rw [if_neg hexact]
    have hactivity := activity_drawn hsync hleft (hright.trans hfin) hleads hspan hedges
    have hcount := hactivity.length
    exact { hactivity with length := hcount.trans (by split <;> omega) }

/-- **All buckets.** -/
theorem BucketsDrawn.run (hsync : view.channel.Synced) (htimes : view.TimesAscend)
    (hstart : start ≤ maxTime) (hlt : begin < fin) (hfin : fin ≤ view.size)
    (hmax : ∀ i < fin, view.time i ≤ maxTime)
    (hlater : ∀ i, begin < i → i < fin → start ≤ view.time i) (hbuckets : 0 < buckets) :
    ∀ n ≤ buckets, BucketsDrawn view bit start maxTime begin fin budget buckets n
      ((List.range n).foldl
        (view.digitalBucket bit minTime pixelTime start maxTime fin budget buckets) (begin, [])) := by
  intro n
  induction n with
  | zero =>
    intro _
    have hfirst : bucketTime start maxTime buckets 0 = start := by
      simp [bucketTime]
    refine ⟨Nat.le_refl _, hlt, ⟨hfirst, rfl⟩, fun i hi hlt => hfirst.le.trans (hlater i hi hlt), ?_,
      (fun _ drawn hmem => by cases hmem), Nat.zero_le _, fun hnone => by omega⟩
    intro i hi
    have hin : begin + 1 ≤ i ∧ i < begin + 1 := (mem_edgesIn.mp hi).1
    omega
  | succ n ih =>
    intro hn
    rw [List.range_succ, List.foldl_append]
    exact (ih (by omega)).step hsync htimes hstart hfin hmax

end Buckets

/-! ### The whole window -/

/-- What is drawn of a bit on a budget: `begin` is the sample that says its state at the
start, and `fin - 1` the last one. -/
structure BitDrawn (view : WaveQueryView ℚ) (bit : Fin 64) (start maxTime : ℚ)
    (begin fin budget : ℕ) (segments : List (WaveDigitalSegment ℚ)) : Prop where
  leads : Leads start (view.bitState bit begin) segments maxTime (view.bitState bit (fin - 1))
  marked : ∀ i ∈ view.edgesIn bit (begin + 1) fin, Marked segments (view.time i)
  calm : view.edgesIn bit (begin + 1) fin = [] → Calm segments
  length : segments.length ≤ budget

/-- **A window that shows a sample is drawn in full**, in either way. -/
theorem digitalSegments_drawn (hsync : view.channel.Synced) (htimes : view.TimesAscend)
    {budget pixelWidth : ℕ} (hbudget : 0 < budget)
    (hshown : 0 < view.size ∧ view.time 0 ≤ max minTime maxTime) :
    let begin := (view.range minTime maxTime false).1 - 1
    let fin := (view.range minTime maxTime false).2
    begin < fin ∧ BitDrawn view bit (max (min minTime maxTime) (view.time 0)) (max minTime maxTime)
      begin fin budget (view.digitalSegments minTime maxTime bit budget pixelWidth) := by
  intro begin fin
  have hrange := @range_eq view minTime maxTime
  have hlow : begin = view.bound (min minTime maxTime) false - 1 :=
    congrArg (fun range => range.1 - 1) hrange
  have hhigh : fin = view.bound (max minTime maxTime) true := congrArg Prod.snd hrange
  have hfin : fin ≤ view.size := hhigh ▸ bound_le_size _ _
  have hfirst : 0 < fin := hhigh ▸ (htimes.upto_iff hshown.1).mpr hshown.2
  have hmax : ∀ i < fin, view.time i ≤ max minTime maxTime := by
    intro i hi
    exact (htimes.upto_iff (by omega)).mp (hhigh ▸ hi)
  have hlt : begin < fin := by
    rcases Nat.eq_zero_or_pos begin with hzero | hpos
    · omega
    · have hsize := @bound_le_size _ _ view (min minTime maxTime) false
      have hbefore := (htimes.before_iff (by omega : begin < view.size)).mp
        (by omega : begin < view.bound (min minTime maxTime) false)
      rw [hhigh, htimes.upto_iff (by omega)]
      exact hbefore.le.trans min_le_max
  have hstart : (if lt (min minTime maxTime) (view.time begin) then view.time begin
      else min minTime maxTime) = max (min minTime maxTime) (view.time 0) := by
    rcases Nat.eq_zero_or_pos begin with hzero | hpos
    · rw [hzero]
      by_cases hafter : min minTime maxTime < view.time 0
      · have hlt : lt (min minTime maxTime) (view.time 0) = true := decide_eq_true hafter
        rw [if_pos hlt, max_eq_right hafter.le]
      · rw [if_neg (by simpa [lt] using hafter), max_eq_left (not_lt.mp hafter)]
    · have hbefore := (htimes.before_iff (by omega : begin < view.size)).mp
        (by omega : begin < view.bound (min minTime maxTime) false)
      have hzero := htimes.le_time (Nat.zero_le begin) (by omega)
      rw [if_neg (by simpa [lt] using hbefore.le), max_eq_left (hzero.trans hbefore.le)]
  have hstartLe : max (min minTime maxTime) (view.time 0) ≤ max minTime maxTime :=
    max_le min_le_max hshown.2
  have hlater : ∀ i, begin < i → i < fin → max (min minTime maxTime) (view.time 0) ≤ view.time i := by
    intro i hi hlt
    refine max_le ?_ (htimes.le_time (Nat.zero_le i) (by omega))
    have hnot : ¬ i < view.bound (min minTime maxTime) false := by omega
    rwa [htimes.before_iff (by omega), not_lt] at hnot
  refine ⟨hlt, ?_⟩
  unfold digitalSegments
  rw [dif_pos bit.isLt, if_neg (by omega)]
  dsimp only
  rw [range_ordered, ordered_eq]
  dsimp only
  rw [if_neg (by omega), hstart]
  change BitDrawn view bit _ _ begin fin budget
    (let found := view.findEdges bit ((budget - 1) / 2) (fin - (begin + 1)) (begin + 1) fin []
     if found.1 = true then _ else _)
  have hfound := @findEdges_found _ _ view bit (begin + 1) fin _ hsync ((budget - 1) / 2) (by omega)
    hfin
  dsimp only at hfound ⊢
  generalize view.findEdges bit ((budget - 1) / 2) (fin - (begin + 1)) (begin + 1) fin [] = found
    at hfound ⊢
  obtain ⟨hall, -⟩ := hfound
  split
  · rename_i hok
    obtain ⟨heq, hfew⟩ := hall hok
    rw [heq] at hfew ⊢
    have hdrawn := @emitExact_drawn view bit (min minTime maxTime)
      (WaveArith.div (sub (max minTime maxTime) (min minTime maxTime))
        (WaveArith.ofSize (max pixelWidth 1)))
      (max (min minTime maxTime) (view.time 0)) (view.bitState bit begin) htimes (begin + 1) fin
      (max (min minTime maxTime) (view.time 0)) (max minTime maxTime) [] (by omega) hfin
      ⟨rfl, rfl⟩ hstartLe (fun i hi => by
        obtain ⟨hin, -⟩ := mem_edgesIn.mp hi
        exact ⟨hlater i (by omega) hin.2, hmax i hin.2⟩)
    rw [Nat.add_sub_cancel] at hdrawn
    obtain ⟨hleads, hmarked, -, hcalm, hlength⟩ := hdrawn
    refine ⟨hleads, hmarked, fun hnone => hcalm hnone (fun drawn hmem => by cases hmem), ?_⟩
    refine hlength.trans ?_
    rw [List.length_nil]
    omega
  · have hrun := @BucketsDrawn.run view bit (min minTime maxTime) (max minTime maxTime)
      (WaveArith.div (sub (max minTime maxTime) (min minTime maxTime))
        (WaveArith.ofSize (max pixelWidth 1)))
      (max (min minTime maxTime) (view.time 0)) begin fin budget (max 1 (budget / 3)) hsync htimes
      hstartLe hlt hfin hmax hlater (by omega) _ (Nat.le_refl _)
    have hlast := hrun.last rfl
    obtain ⟨-, -, hleads, -, hmarked, hcalm, hlength, -⟩ := hrun
    rw [bucketTime_last (by omega)] at hleads
    rw [hlast] at hmarked
    refine ⟨?_, hmarked, hcalm, ?_⟩
    · rw [← hlast, Nat.add_sub_cancel]
      exact hleads
    · refine hlength.trans ?_
      split <;> omega

/-- Where no sample is shown, or nothing may be drawn, there are no segments. -/
theorem digitalSegments_none (htimes : view.TimesAscend) {bit budget pixelWidth : ℕ}
    (h : 64 ≤ bit ∨ budget = 0 ∨ ¬ (0 < view.size ∧ view.time 0 ≤ max minTime maxTime)) :
    view.digitalSegments minTime maxTime bit budget pixelWidth = [] := by
  unfold digitalSegments
  by_cases hbit : bit < 64
  · rw [dif_pos hbit]
    by_cases hnone : view.size = 0 ∨ budget = 0
    · exact if_pos hnone
    · rw [if_neg hnone]
      have hlate : ¬ view.time 0 ≤ max minTime maxTime := by
        rcases h with hhigh | hzero | hshown
        · omega
        · exact absurd (.inr hzero) hnone
        · exact fun hle => hshown ⟨by omega, hle⟩
      rw [← htimes.upto_iff (by omega)] at hlate
      dsimp only
      rw [range_ordered, range_eq]
      exact if_pos (by dsimp only; omega)
  · exact dif_neg hbit

end WaveQueryView

open WaveQueryView

/-- **What is drawn of a bit.**  There are at most `budget` segments; they lead without gap,
overlap or jump of the state from the start of the window, or the first sample where that
is later, to the end of the window; every edge in the window is marked, and a bit that
never changes shows no activity.  With no budget nothing is drawn. -/
theorem digital_segments_tile (steps : List (WindowStep ℚ)) (indexed : Bool)
    (ratio scale offset : ℚ) (axis : WaveTimeAxisSource) (frequency : ℚ)
    (formula : WaveDisplayFormula) (minTime maxTime : ℚ) (bit budget pixelWidth : ℕ) :
    let view : WaveQueryView ℚ :=
      ⟨(SampleWindow.run steps).channel indexed ratio scale offset, axis, frequency, formula⟩
    let segments := view.digitalSegments minTime maxTime bit budget pixelWidth
    let viewport := view.range minTime maxTime false
    view.TimesAscend →
    segments.length ≤ budget ∧
    (0 < budget → bit < 64 → 0 < view.size ∧ view.time 0 ≤ max minTime maxTime →
      Leads (max (min minTime maxTime) (view.time 0)) (view.bitAt bit (viewport.1 - 1)) segments
        (max minTime maxTime) (view.bitAt bit (viewport.2 - 1))) ∧
    (¬ (0 < view.size ∧ view.time 0 ≤ max minTime maxTime) → segments = []) ∧
    (0 < budget → ∀ i, 1 ≤ i → i < view.size → min minTime maxTime ≤ view.time i →
      view.time i ≤ max minTime maxTime → view.bitAt bit i ≠ view.bitAt bit (i - 1) →
      Marked segments (view.time i)) ∧
    ((∀ i < view.size, view.bitAt bit i = view.bitAt bit 0) → Calm segments) := by
  intro view segments viewport htimes
  have hsync : view.channel.Synced :=
    SampleWindow.channel_synced steps indexed ratio scale offset
  by_cases hdrawn : bit < 64 ∧ 0 < budget ∧ 0 < view.size ∧ view.time 0 ≤ max minTime maxTime
  · obtain ⟨hbit, hbudget, hshown⟩ := hdrawn
    obtain ⟨hlt, hleads, hmarked, hcalm, hlength⟩ :=
      @digitalSegments_drawn view ⟨bit, hbit⟩ minTime maxTime hsync htimes budget pixelWidth hbudget
        hshown
    have hbits : ∀ i, view.bitAt bit i = view.bitState ⟨bit, hbit⟩ i := bitAt_eq ⟨bit, hbit⟩
    simp only [← hbits] at hleads
    refine ⟨hlength, fun _ _ _ => hleads, fun h => absurd hshown h, ?_, ?_⟩
    · intro _ i hi hsize hmin hmax hedge
      have hin := (htimes.mem_range hsize).mpr ⟨hmin, hmax⟩
      exact hmarked i (mem_edgesIn.mpr ⟨by omega, by rwa [← hbits, ← hbits]⟩)
    · intro hconstant
      have hend : viewport.2 ≤ view.size := bound_le_size (ordered minTime maxTime).2 true
      refine hcalm (edgesIn_eq_nil fun i hi hlt => ?_)
      have hsize : i < view.size := hlt.trans_le hend
      rw [← hbits, ← hbits, hconstant i hsize, hconstant (i - 1) (by omega)]
  · have hnone : segments = [] := digitalSegments_none htimes (by
      by_contra hall
      push Not at hall
      exact hdrawn ⟨hall.1, Nat.pos_of_ne_zero hall.2.1, hall.2.2⟩)
    rw [hnone]
    refine ⟨Nat.zero_le _, ?_, fun _ => rfl, ?_, fun _ drawn hmem => by cases hmem⟩
    · intro hbudget hbit hshown
      exact absurd ⟨hbit, hbudget, hshown⟩ hdrawn
    · intro hbudget i _ hsize _ hmax hedge
      by_cases hbit : bit < 64
      · have hfirst := (htimes.le_time (Nat.zero_le i) hsize).trans hmax
        exact absurd ⟨hbit, hbudget, by omega, hfirst⟩ hdrawn
      · rw [bitAt_high (by omega), bitAt_high (by omega)] at hedge
        exact absurd rfl hedge

/-- The pulse with a budget of five: its rise at time one is marked. -/
theorem digital_segments_tile_pulse : Marked (pulseView.digitalSegments 0 2 0 5 100) 1 :=
  (digital_segments_tile [.slide 0 [⟨0, 0⟩, ⟨1, 1⟩, ⟨2, 0⟩] false] true 1 1 0 .scriptTime 0
    .offsetThenScale 0 2 0 5 100 pulseView_ascends).2.2.2.1 (by decide) 1 (by decide) (by decide)
    (by decide) (by decide) (by decide)

/-- The pulse with a budget of zero: it rises in the window, and nothing is drawn. -/
theorem no_segment_without_budget :
    pulseView.TimesAscend ∧ pulseView.bitAt 0 1 ≠ pulseView.bitAt 0 0 ∧
      (0 ≤ pulseView.time 1 ∧ pulseView.time 1 ≤ 2) ∧
      pulseView.digitalSegments 0 2 0 0 100 = [] ∧
      ¬ Marked (pulseView.digitalSegments 0 2 0 0 100) (pulseView.time 1) := by
  have hnone : pulseView.digitalSegments 0 2 0 0 100 = [] := rfl
  refine ⟨pulseView_ascends, by decide, by decide, hnone, ?_⟩
  rw [hnone]
  rintro ⟨segment, hmem, -⟩
  cases hmem

end ProtoScope.Plot
