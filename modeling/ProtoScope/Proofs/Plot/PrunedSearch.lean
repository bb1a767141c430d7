/-
Searches that skip blocks.

The searches for an edge of a bit and for the first crossing of a threshold ask for the
summary of a block and of the sample before it, and skip the block where that rules out
what they look for: a constant bit has no edge, and a line between two samples crosses no
threshold that lies beyond all values.  Both find what a scan over all pairs of adjacent
samples finds, in exact arithmetic.  An edge lies in the window where its second sample
does; a crossing lies there where the line does cross, so neither sample of its pair needs
to.
-/
import Mathlib.Algebra.Order.Field.Basic
import Mathlib.Tactic.Linarith
import Mathlib.Tactic.Ring
import ProtoScope.Library.HalvingSearch
import ProtoScope.Proofs.Plot.QueryViews

namespace ProtoScope.Plot

open ProtoScope.Library
open WaveScalar HalvingSearch WaveArith

namespace WaveQueryView

variable {view : WaveQueryView ℚ} {minTime maxTime threshold : ℚ}

/-! ### What the searches are for -/

/-- Bit `bit` of the value of sample `i`, as an unsigned word. -/
def bitAt (view : WaveQueryView ℚ) (bit i : ℕ) : Bool :=
  (waveRawBits (view.rawSample i).value).toNat.testBit bit

theorem bitAt_eq (bit : Fin 64) (i : ℕ) : view.bitAt bit i = view.bitState bit i :=
  (bitState_eq bit i).symm

/-- A word has no bit from the 64th on. -/
theorem bitAt_high {bit : ℕ} (hbit : 64 ≤ bit) (i : ℕ) : view.bitAt bit i = false := by
  unfold bitAt
  apply Nat.testBit_lt_two_pow
  exact (UInt64.toNat_lt _).trans_le (Nat.pow_le_pow_right (by omega) hbit)

/-- The sample after an edge to `state`, if it lies in the window. -/
def edgeAt (view : WaveQueryView ℚ) (minTime maxTime : ℚ) (bit : ℕ) (state : Bool) (i : ℕ) :
    Option ℕ :=
  if min minTime maxTime ≤ view.time i ∧ view.time i ≤ max minTime maxTime ∧
      view.bitAt bit i = state ∧ view.bitAt bit (i - 1) ≠ state then some i
  else none

/-- The first or the last edge of a bit, over all pairs of adjacent samples. -/
def scanEdges (view : WaveQueryView ℚ) (minTime maxTime : ℚ) (bit : ℕ) (state reverse : Bool) :
    Option ℕ :=
  let indices := List.range' 1 (view.size - 1)
  (if reverse then indices.reverse else indices).findSome? (view.edgeAt minTime maxTime bit state)

/-- Where the line from sample `i - 1` to sample `i` crosses the threshold, if in the window. -/
def lineCrossing (view : WaveQueryView ℚ) (minTime maxTime threshold : ℚ) (rising : Bool) (i : ℕ) :
    Option ℚ :=
  let a := view.sample (i - 1)
  let b := view.sample i
  let t := a.time + (threshold - a.value) * (b.time - a.time) / (b.value - a.value)
  if (if rising then a.value < threshold ∧ threshold ≤ b.value
      else threshold < a.value ∧ b.value ≤ threshold) ∧ minTime ≤ t ∧ t ≤ maxTime then some t
  else none

/-- The first crossing, over all pairs of adjacent samples. -/
def scanCrossings (view : WaveQueryView ℚ) (minTime maxTime threshold : ℚ) (rising : Bool) :
    Option ℚ :=
  (List.range' 1 (view.size - 1)).findSome? (view.lineCrossing minTime maxTime threshold rising)

/-! ### The window -/

theorem ordered_eq (a b : ℚ) : ordered a b = (min a b, max a b) := by
  unfold ordered
  by_cases h : b < a
  · have hswap : lt b a = true := decide_eq_true h
    rw [if_pos hswap, min_eq_right h.le, max_eq_left h.le]
  · have hkeep : ¬ lt b a = true := by simpa [lt] using h
    rw [if_neg hkeep, min_eq_left (not_lt.mp h), max_eq_right (not_lt.mp h)]

theorem TimesAscend.le_time (h : view.TimesAscend) {i j : ℕ} (hij : i ≤ j) (hj : j < view.size) :
    view.time i ≤ view.time j := by
  rcases Nat.eq_or_lt_of_le hij with rfl | hlt
  · exact le_refl _
  · simpa [le] using h i j hlt hj

theorem TimesAscend.before_iff (h : view.TimesAscend) {t : ℚ} {i : ℕ} (hi : i < view.size) :
    i < view.bound t false ↔ view.time i < t := by
  have hsplits := h.bound_splits t false
  constructor
  · intro hlt
    simpa [lt] using hsplits.below i hlt
  · intro hlt
    by_contra hge
    have habove := hsplits.above i (by omega) hi
    simp [lt, hlt] at habove

theorem TimesAscend.upto_iff (h : view.TimesAscend) {t : ℚ} {i : ℕ} (hi : i < view.size) :
    i < view.bound t true ↔ view.time i ≤ t := by
  have hsplits := h.bound_splits t true
  constructor
  · intro hlt
    have hbelow := hsplits.below i hlt
    simpa [lt, eq, le_iff_lt_or_eq] using hbelow
  · intro hle
    by_contra hge
    have habove := hsplits.above i (by omega) hi
    rcases lt_or_eq_of_le hle with hlt | heq
    · simp [lt, hlt] at habove
    · simp [eq, heq] at habove

theorem range_eq (minTime maxTime : ℚ) :
    view.range minTime maxTime false =
      (view.bound (min minTime maxTime) false, view.bound (max minTime maxTime) true) := by
  unfold range
  rw [ordered_eq]
  rfl

/-- **The binary searches find the samples of the window.** -/
theorem TimesAscend.mem_range (h : view.TimesAscend) {i : ℕ} (hi : i < view.size) :
    ((view.range minTime maxTime false).1 ≤ i ∧ i < (view.range minTime maxTime false).2) ↔
      (min minTime maxTime ≤ view.time i ∧ view.time i ≤ max minTime maxTime) := by
  rw [range_eq, h.upto_iff hi, ← not_lt, h.before_iff hi, not_lt]

/-! ### Edges -/

theorem searchEdge_eq_search (bit : Fin 64) (state reverse : Bool) :
    ∀ (fuel left right : ℕ), view.searchEdge bit state reverse fuel left right =
      search (fun left right => constantBit bit (view.summary (left - 1) right))
        blockSize reverse
        (Option.guard fun i =>
          view.bitState bit i != view.bitState bit (i - 1) && view.bitState bit i == state)
        fuel left right := by
  intro fuel
  induction fuel with
  | zero =>
    intro left right
    rfl
  | succ fuel ih =>
    intro left right
    unfold searchEdge search positions
    simp only [ih, List.findSome?_guard]
    cases reverse with
    | true =>
      simp only [if_true]
      cases search _ _ _ _ fuel (left + (right - left) / 2) right <;> rfl
    | false =>
      simp only [Bool.false_eq_true, if_false]
      cases search _ _ _ _ fuel left (left + (right - left) / 2) <;> rfl

/-- A block whose summary says that the bit is constant has no edge, nor has its border with
the sample before it. -/
theorem no_edge_of_constantBit (hsync : view.channel.Synced) {bit : Fin 64} {state : Bool}
    {left right : ℕ} (hleft : 1 ≤ left) (hlt : left < right) (hsize : right ≤ view.size)
    (hconstant : constantBit bit (view.summary (left - 1) right) = true) :
    ∀ i, left ≤ i → i < right →
      Option.guard (fun i =>
        view.bitState bit i != view.bitState bit (i - 1) && view.bitState bit i == state) i =
        none := by
  have hall := (constantBit_summary hsync (by omega) hsize bit).mp hconstant
  intro i hi hright
  rw [Option.guard_eq_none_iff]
  rw [hall i (by omega) hright, hall (i - 1) (by omega) (by omega)]
  simp

theorem edge_eq (htimes : view.TimesAscend) {bit : Fin 64} {state : Bool} {i : ℕ}
    (hi : i < view.size) (hleft : (view.range minTime maxTime false).1 ≤ i)
    (hright : i < (view.range minTime maxTime false).2) :
    Option.guard (fun i =>
      view.bitState bit i != view.bitState bit (i - 1) && view.bitState bit i == state) i =
      view.edgeAt minTime maxTime bit state i := by
  have hwindow := (htimes.mem_range hi).mp ⟨hleft, hright⟩
  unfold edgeAt Option.guard
  simp only [hwindow, bitAt_eq, true_and]
  apply if_congr _ rfl rfl
  cases view.bitState bit i <;> cases view.bitState bit (i - 1) <;> cases state <;> simp

/-- Outside the window no edge is looked for. -/
theorem edgeAt_outside (htimes : view.TimesAscend) {bit : ℕ} {state : Bool} {i : ℕ}
    (hi : i < view.size)
    (houtside : ¬ ((view.range minTime maxTime false).1 ≤ i ∧
      i < (view.range minTime maxTime false).2)) :
    view.edgeAt minTime maxTime bit state i = none := by
  rw [htimes.mem_range hi] at houtside
  exact if_neg fun h => houtside ⟨h.1, h.2.1⟩

theorem edgeAt_high {bit : ℕ} (hbit : 64 ≤ bit) {state : Bool} (i : ℕ) :
    view.edgeAt minTime maxTime bit state i = none := by
  unfold edgeAt
  rw [bitAt_high hbit, bitAt_high hbit]
  exact if_neg fun h => h.2.2.2 h.2.2.1

/-- **The search for an edge is a scan.** -/
theorem bitEdge_eq (hsync : view.channel.Synced) (htimes : view.TimesAscend) (bit : ℕ)
    (state reverse : Bool) :
    view.bitEdge minTime maxTime bit state reverse =
      view.scanEdges minTime maxTime bit state reverse := by
  have hscan : view.scanEdges minTime maxTime bit state reverse =
      (positions reverse 1 view.size).findSome?
        (view.edgeAt minTime maxTime bit state) := rfl
  rw [hscan]
  unfold bitEdge
  by_cases hbit : bit < 64
  · rw [dif_pos hbit]
    by_cases hsize : view.size < 2
    · rw [if_pos hsize]
      exact (findSome_none fun i hi hlt => by omega).symm
    · have hend : (view.range minTime maxTime false).2 ≤ view.size :=
        bound_le_size (ordered minTime maxTime).2 true
      rw [if_neg hsize]
      dsimp only
      rw [searchEdge_eq_search, search_eq (by decide) _ _ _ (Nat.le_refl _)
        fun left right hleft hlt hright => no_edge_of_constantBit hsync (by omega) hlt
          (hright.trans hend)]
      rw [findSome_restrict reverse (by omega : 1 ≤ max 1 _) hend]
      · apply findSome_congr
        intro i hi hlt
        exact edge_eq htimes (by omega) (by omega) hlt
      · intro i _ hlt hbefore
        exact edgeAt_outside htimes hlt (by omega)
      · intro i _ hlt hafter
        exact edgeAt_outside htimes hlt (by omega)
  · rw [dif_neg hbit]
    exact (findSome_none fun i _ _ => edgeAt_high (by omega) i).symm

/-! ### Crossings -/

theorem crossingAt_eq (rising : Bool) (i : ℕ) :
    view.crossingAt minTime maxTime threshold rising i =
      view.lineCrossing minTime maxTime threshold rising i := by
  unfold crossingAt lineCrossing
  generalize view.sample (i - 1) = a
  generalize view.sample i = b
  dsimp only
  cases rising with
  | true =>
    by_cases hcross : a.value < threshold ∧ threshold ≤ b.value
    · have hne : b.value ≠ a.value := by linarith [hcross.1, hcross.2]
      simp [lt, le, eq, hcross, hne, add, mul, div, sub]
    · simp [lt, le, eq, hcross, add, mul, div, sub]
  | false =>
    by_cases hcross : threshold < a.value ∧ b.value ≤ threshold
    · have hne : b.value ≠ a.value := by linarith [hcross.1, hcross.2]
      simp [lt, le, eq, hcross, hne, add, mul, div, sub]
    · simp [lt, le, eq, hcross, add, mul, div, sub]

/-- What a displayed value gains for each unit of the value itself. -/
def gain (view : WaveQueryView ℚ) : ℚ := view.channel.ratio * view.channel.scale

/-- What is displayed for the value zero. -/
def bias (view : WaveQueryView ℚ) : ℚ :=
  match view.formula with
  | .offsetThenScale => view.channel.offset * view.channel.scale
  | .scaleThenOffset => view.channel.offset

/-- Either formula is a straight line. -/
theorem sample_value (i : ℕ) :
    (view.sample i).value = (view.rawSample i).value * view.gain + view.bias := by
  unfold sample actual gain bias
  cases view.formula with
  | offsetThenScale =>
    simp only [add, mul]
    ring
  | scaleThenOffset =>
    simp only [add, mul]
    ring

/-- What the search skips a block for. -/
def misses (view : WaveQueryView ℚ) (threshold : ℚ) (left right : ℕ) : Bool :=
  let s := view.summary (left - 1) right
  let a := (view.sample (s.minimum - view.channel.sampleIndexOffset)).value
  let b := (view.sample (s.maximum - view.channel.sampleIndexOffset)).value
  lt threshold (if lt b a then b else a) || lt (if lt a b then b else a) threshold || eq a b

theorem searchCrossing_eq_search (rising : Bool) :
    ∀ (fuel left right : ℕ),
      view.searchCrossing minTime maxTime threshold rising fuel left right =
        search (view.misses threshold) blockSize false
          (view.crossingAt minTime maxTime threshold rising) fuel left right := by
  intro fuel
  induction fuel with
  | zero =>
    intro left right
    rfl
  | succ fuel ih =>
    intro left right
    unfold searchCrossing search positions
    simp only [ih, Bool.false_eq_true, if_false]
    cases search _ _ _ _ fuel left (left + (right - left) / 2) <;> rfl

/-- The displayed values of a block lie between those of its least and its greatest value. -/
theorem displayed_between (hsync : view.channel.Synced) {begin fin i : ℕ} (hsize : fin ≤ view.size)
    (hi : begin ≤ i) (hlt : i < fin) :
    let s := view.summary begin fin
    let a := (view.sample (s.minimum - view.channel.sampleIndexOffset)).value
    let b := (view.sample (s.maximum - view.channel.sampleIndexOffset)).value
    min a b ≤ (view.sample i).value ∧ (view.sample i).value ≤ max a b := by
  have hs := summary_summarized hsync (by omega : begin < fin) hsize
  have hleast : (view.rawSample (view.localIndex (view.summary begin fin).minimum)).value ≤
      (view.rawSample i).value := by
    have := (hs.least i hi hlt rfl).2
    simpa [lt] using this
  have hgreatest : (view.rawSample i).value ≤
      (view.rawSample (view.localIndex (view.summary begin fin).maximum)).value := by
    have := (hs.greatest i hi hlt rfl).2
    simpa [lt] using this
  unfold localIndex at hleast hgreatest
  dsimp only
  rw [sample_value, sample_value, sample_value]
  rcases le_total 0 view.gain with hgain | hgain
  · have hlow := mul_le_mul_of_nonneg_right hleast hgain
    have hhigh := mul_le_mul_of_nonneg_right hgreatest hgain
    exact ⟨min_le_of_left_le (by linarith), le_max_of_le_right (by linarith)⟩
  · have hlow := mul_le_mul_of_nonpos_right hleast hgain
    have hhigh := mul_le_mul_of_nonpos_right hgreatest hgain
    exact ⟨min_le_of_right_le (by linarith), le_max_of_le_left (by linarith)⟩

/-- **No line of a skipped block crosses the threshold**, nor does the line that leads into
the block. -/
theorem no_crossing_of_misses (hsync : view.channel.Synced) {rising : Bool} {left right : ℕ}
    (hleft : 1 ≤ left) (hsize : right ≤ view.size)
    (hmisses : view.misses threshold left right = true) :
    ∀ i, left ≤ i → i < right →
      view.lineCrossing minTime maxTime threshold rising i = none := by
  intro i hi hlt
  have hbefore := @displayed_between view hsync (left - 1) right (i - 1) hsize (by omega) (by omega)
  have hhere := @displayed_between view hsync (left - 1) right i hsize (by omega) hlt
  unfold misses at hmisses
  dsimp only at hbefore hhere hmisses
  generalize (view.sample ((view.summary (left - 1) right).minimum -
    view.channel.sampleIndexOffset)).value = a at *
  generalize (view.sample ((view.summary (left - 1) right).maximum -
    view.channel.sampleIndexOffset)).value = b at *
  have hleast : (if lt b a = true then b else a) = min a b := by
    by_cases h : b < a
    · simp [lt, h, min_eq_right h.le]
    · simp [lt, h, min_eq_left (not_lt.mp h)]
  have hgreatest : (if lt a b = true then b else a) = max a b := by
    by_cases h : a < b
    · simp [lt, h, max_eq_right h.le]
    · simp [lt, h, max_eq_left (not_lt.mp h)]
  rw [hleast, hgreatest] at hmisses
  simp only [lt, eq, Bool.or_eq_true, decide_eq_true_eq] at hmisses
  have hnone : ¬ (if rising = true then
        (view.sample (i - 1)).value < threshold ∧ threshold ≤ (view.sample i).value
      else threshold < (view.sample (i - 1)).value ∧ (view.sample i).value ≤ threshold) := by
    rcases hmisses with (habove | hbelow) | hflat
    · split <;> rintro ⟨h1, h2⟩ <;> linarith [hbefore.1, hhere.1]
    · split <;> rintro ⟨h1, h2⟩ <;> linarith [hbefore.2, hhere.2]
    · subst hflat
      rw [min_self, max_self] at hbefore hhere
      split <;> rintro ⟨h1, h2⟩ <;> linarith [hbefore.1, hbefore.2, hhere.1, hhere.2]
  exact if_neg fun h => hnone h.1

/-- A line from `a` at time `s` to `b` at time `u` crosses a threshold between the two. -/
theorem crossing_within {a b s u : ℚ} (hsu : s ≤ u)
    (hcross : a < threshold ∧ threshold ≤ b ∨ threshold < a ∧ b ≤ threshold) :
    s ≤ s + (threshold - a) * (u - s) / (b - a) ∧ s + (threshold - a) * (u - s) / (b - a) ≤ u := by
  have hspan : 0 ≤ u - s := by linarith
  have hfraction : 0 ≤ (threshold - a) * (u - s) / (b - a) ∧
      (threshold - a) * (u - s) / (b - a) ≤ u - s := by
    rcases hcross with ⟨hlow, hhigh⟩ | ⟨hhigh, hlow⟩
    · have hpositive : 0 < b - a := by linarith
      refine ⟨div_nonneg (mul_nonneg (by linarith) hspan) hpositive.le, ?_⟩
      rw [div_le_iff₀ hpositive, mul_comm (u - s)]
      exact mul_le_mul_of_nonneg_right (by linarith) hspan
    · have hnegative : b - a < 0 := by linarith
      refine ⟨div_nonneg_of_nonpos (mul_nonpos_of_nonpos_of_nonneg (by linarith) hspan)
        hnegative.le, ?_⟩
      rw [div_le_iff_of_neg hnegative, mul_comm (u - s)]
      exact mul_le_mul_of_nonneg_right (by linarith) hspan
  constructor <;> linarith [hfraction.1, hfraction.2]

theorem lineCrossing_between (htimes : view.TimesAscend) {rising : Bool} {i : ℕ} {t : ℚ}
    (hi : i < view.size) (h : view.lineCrossing minTime maxTime threshold rising i = some t) :
    (view.time (i - 1) ≤ t ∧ t ≤ view.time i) ∧ minTime ≤ t ∧ t ≤ maxTime := by
  unfold lineCrossing at h
  simp only [Option.ite_none_right_eq_some, Option.some.injEq] at h
  obtain ⟨⟨hcross, hwindow⟩, rfl⟩ := h
  refine ⟨crossing_within (htimes.le_time (Nat.sub_le i 1) hi) ?_, hwindow⟩
  cases rising with
  | true => exact .inl hcross
  | false => exact .inr hcross

/-- Between two neighbours outside the window no line crosses the threshold inside it. -/
theorem lineCrossing_outside (htimes : view.TimesAscend) {rising : Bool} {i : ℕ} (hi : 1 ≤ i)
    (hlt : i < view.size)
    (houtside : i < (view.range minTime maxTime true).1 ∨
      (view.range minTime maxTime true).2 ≤ i) :
    view.lineCrossing minTime maxTime threshold rising i = none := by
  cases h : view.lineCrossing minTime maxTime threshold rising i with
  | none => rfl
  | some t =>
    exfalso
    obtain ⟨⟨hfrom, hto⟩, hmin, hmax⟩ := lineCrossing_between htimes hlt h
    unfold range at houtside
    rw [ordered_eq, min_eq_left (hmin.trans hmax), max_eq_right (hmin.trans hmax)] at houtside
    simp only [Bool.true_and, decide_eq_true_eq] at houtside
    rcases houtside with hbefore | hafter
    · have hin : i < view.bound minTime false := by
        split at hbefore <;> omega
      have := (htimes.before_iff hlt).mp hin
      linarith
    · have hout : ¬ i - 1 < view.bound maxTime true := by
        split at hafter <;> omega
      rw [htimes.upto_iff (by omega)] at hout
      linarith

/-- **The search for a crossing is a scan.** -/
theorem firstCrossing_eq (hsync : view.channel.Synced) (htimes : view.TimesAscend) (rising : Bool) :
    view.firstCrossing minTime maxTime threshold rising =
      view.scanCrossings minTime maxTime threshold rising := by
  have hscan : view.scanCrossings minTime maxTime threshold rising =
      (positions false 1 view.size).findSome?
        (view.lineCrossing minTime maxTime threshold rising) := rfl
  have hfinite : (!isFinite threshold) = false := rfl
  rw [hscan]
  unfold firstCrossing
  rw [hfinite, Bool.false_or]
  by_cases hsize : view.size < 2
  · rw [if_pos (decide_eq_true hsize)]
    exact (findSome_none fun i hi hlt => by omega).symm
  · rw [if_neg (by simpa using hsize)]
    have hend : (view.range minTime maxTime true).2 ≤ view.size := by
      have hbound := @bound_le_size _ _ view (ordered minTime maxTime).2 true
      unfold range
      dsimp only
      split
      · rename_i hmore
        simp only [Bool.true_and, decide_eq_true_eq] at hmore
        omega
      · exact hbound
    have hsame : view.crossingAt minTime maxTime threshold rising =
        view.lineCrossing minTime maxTime threshold rising := funext (crossingAt_eq rising)
    dsimp only
    rw [searchCrossing_eq_search, hsame,
      search_eq (by decide) _ _ _ (Nat.le_refl _)
        fun left right hleft _ hright => no_crossing_of_misses hsync (by omega)
          (hright.trans hend),
      findSome_restrict false (by omega : 1 ≤ max _ 1) hend]
    · intro i hi hlt hbefore
      exact lineCrossing_outside htimes hi hlt (by omega)
    · intro i hi hlt hafter
      exact lineCrossing_outside htimes hi hlt (.inr hafter)

end WaveQueryView

open WaveQueryView

/-- **Skipping blocks loses no edge and no crossing.**  On a channel in nondecreasing order of
time the searches give what a scan over all pairs of adjacent samples gives, for every
window, bit, target state and threshold and in both directions, with a summary index or
without one. -/
theorem pruned_searches_scan (steps : List (WindowStep ℚ)) (indexed : Bool)
    (ratio scale offset : ℚ) (axis : WaveTimeAxisSource) (frequency : ℚ)
    (formula : WaveDisplayFormula) (minTime maxTime threshold : ℚ) (bit : ℕ)
    (state reverse rising : Bool) :
    let view : WaveQueryView ℚ :=
      ⟨(SampleWindow.run steps).channel indexed ratio scale offset, axis, frequency, formula⟩
    view.TimesAscend →
    view.bitEdge minTime maxTime bit state reverse =
        view.scanEdges minTime maxTime bit state reverse ∧
      view.firstCrossing minTime maxTime threshold rising =
        view.scanCrossings minTime maxTime threshold rising := by
  intro view htimes
  have hsync : view.channel.Synced :=
    SampleWindow.channel_synced steps indexed ratio scale offset
  exact ⟨bitEdge_eq hsync htimes bit state reverse, firstCrossing_eq hsync htimes rising⟩

/-- Three samples one apart, of the values zero, one and zero. -/
def pulseView : WaveQueryView ℚ where
  channel := (SampleWindow.run [.slide 0 [⟨0, 0⟩, ⟨1, 1⟩, ⟨2, 0⟩] false]).channel true 1 1 0
  axis := .scriptTime
  frequency := 0
  formula := .offsetThenScale

theorem pulseView_ascends : pulseView.TimesAscend := by
  have hall : ∀ j < 3, ∀ i < j, le (pulseView.time i) (pulseView.time j) = true := by
    decide
  intro i j hij hj
  exact hall j hj i hij

/-- The pulse, searched for its last edge up and for its first fall through one half. -/
theorem pruned_searches_scan_pulse :
    pulseView.bitEdge 0 2 0 true true = pulseView.scanEdges 0 2 0 true true ∧
      pulseView.firstCrossing 0 2 (1 / 2) false = pulseView.scanCrossings 0 2 (1 / 2) false :=
  pruned_searches_scan [.slide 0 [⟨0, 0⟩, ⟨1, 1⟩, ⟨2, 0⟩] false] true 1 1 0 .scriptTime 0
    .offsetThenScale 0 2 (1 / 2) 0 true true false pulseView_ascends

end ProtoScope.Plot
