/-
What a query view knows about a range.

Every query rests on two things: the positions that the binary searches find, and the
summary of the samples between two positions.  The summary is a scan, with an index or
without one, so its fields say what they say of a scan; here they are put in terms of the
positions inside the channel.
-/
import ProtoScope.Library.FloatCompare
import ProtoScope.Plot.WaveQueryView
import ProtoScope.Proofs.Plot.ScanFields
import ProtoScope.Proofs.Plot.WaveIndex

namespace ProtoScope.Plot

open ProtoScope.Library
open WaveScalar FloatOrder

instance : LawfulWaveScalar ℚ where
  lt_irrefl := by simp [lt]
  lt_trans := by
    intro a b c hab hbc
    simp only [lt, decide_eq_true_eq] at *
    exact hab.trans hbc
  lt_or_lt := by
    intro a b c _ hac
    simp only [lt, decide_eq_true_eq] at *
    exact (lt_or_ge a b).imp_right fun hba => hba.trans_lt hac
  lt_or_eq_or_lt := by
    intro a b _ _
    simp only [lt, decide_eq_true_eq]
    exact lt_trichotomy a b
  eq_iff_of_positive := by
    intro a b _
    simp [eq]
  eq_zero := by simp [eq]

/-- Times that can be searched: an order that is compatible with being below or equal, on
either side. -/
class LawfulWaveOrder (α : Type) [WaveScalar α] : Prop where
  lt_of_le_of_lt : ∀ {a b c : α}, le a b = true → lt b c = true → lt a c = true
  lt_or_eq_of_le_of_eq : ∀ {a b c : α}, le a b = true → eq b c = true →
    lt a c = true ∨ eq a c = true
  lt_of_lt_of_le : ∀ {a b c : α}, lt a b = true → le b c = true → lt a c = true
  lt_or_eq_of_eq_of_le : ∀ {a b c : α}, eq a b = true → le b c = true →
    lt a c = true ∨ eq a c = true

instance : LawfulWaveOrder Float where
  lt_of_le_of_lt := lt_of_le_of_lt
  lt_or_eq_of_le_of_eq := lt_or_beq_of_le_of_beq
  lt_of_lt_of_le := lt_of_lt_of_le
  lt_or_eq_of_eq_of_le := lt_or_beq_of_beq_of_le

instance : LawfulWaveOrder ℚ where
  lt_of_le_of_lt := by
    intro a b c hab hbc
    simp only [lt, le, decide_eq_true_eq] at *
    exact hab.trans_lt hbc
  lt_or_eq_of_le_of_eq := by
    intro a b c hab hbc
    simp only [lt, le, eq, decide_eq_true_eq] at *
    exact lt_or_eq_of_le (hab.trans_eq hbc)
  lt_of_lt_of_le := by
    intro a b c hab hbc
    simp only [lt, le, decide_eq_true_eq] at *
    exact hab.trans_le hbc
  lt_or_eq_of_eq_of_le := by
    intro a b c hab hbc
    simp only [lt, le, eq, decide_eq_true_eq] at *
    exact lt_or_eq_of_le (hab.trans_le hbc)

/-! ### The channel of a window -/

section Channel

variable {α : Type} [WaveScalar α]

/-- A view of the samples a channel retains, with its summary index or without it. -/
def SampleWindow.channel (window : SampleWindow α) (indexed : Bool) (ratio scale offset : α) :
    ChannelView α where
  samples := window.samples
  sampleIndexOffset := window.offset
  summaryIndex := if indexed then some window.index else none
  ratio := ratio
  scale := scale
  offset := offset

variable [LawfulWaveScalar α]

/-- The summary index of a channel, if it has one, is right for its samples. -/
def ChannelView.Synced (channel : ChannelView α) : Prop :=
  ∀ index, channel.summaryIndex = some index →
    Plot.Synced index channel.samples channel.sampleIndexOffset

theorem SampleWindow.channel_synced (steps : List (WindowStep α)) (indexed : Bool)
    (ratio scale offset : α) : ((run steps).channel indexed ratio scale offset).Synced := by
  intro index hindex
  cases indexed with
  | true =>
    cases hindex
    exact run_synced steps
  | false => cases hindex

end Channel

namespace WaveQueryView

variable {α : Type} [WaveArith α] {view : WaveQueryView α} {begin fin : ℕ}

theorem sampleAt_eq (i : ℕ) :
    sampleAt view.channel.samples view.channel.sampleIndexOffset
      (i + view.channel.sampleIndexOffset) = view.rawSample i := by
  rw [sampleAt, Nat.add_sub_cancel]
  rfl

theorem bitState_eq (bit : Fin 64) (i : ℕ) :
    view.bitState bit i = (waveRawBits (view.rawSample i).value).toNat.testBit bit := by
  unfold bitState
  rw [Bool.eq_iff_iff, decide_eq_true_eq]
  exact and_mask_ne_zero _ bit

/-! ### Positions -/

theorem bound_le_size (t : α) (upper : Bool) : view.bound t upper ≤ view.size := by
  have := (PartitionPoint.search_bounds
    (fun mid => lt (view.time mid) t || (upper && eq (view.time mid) t)) view.size 0 view.size).2
  rw [Nat.zero_add] at this
  exact this

/-- A time that lies between every pair of ordered times: any number. -/
def IsNumber (t : α) : Prop := ∀ a b : α, lt a b = true → lt a t = true ∨ lt t b = true

/-- If the second bound of a range is not not-a-number, the later of the two is a number. -/
theorem isNumber_ordered {minTime maxTime : Float} (h : maxTime.isNaN = false) :
    IsNumber (ordered minTime maxTime).2 := by
  have hkey : ∃ x, floatKey (ordered minTime maxTime).2 = some x := by
    unfold ordered
    by_cases hswap : lt maxTime minTime = true
    · rw [if_pos hswap]
      obtain ⟨-, y, -, hy, -⟩ := lt_iff.mp hswap
      exact ⟨y, hy⟩
    · rw [if_neg hswap]
      exact key_of_not_isNaN h
  intro a b hab
  exact lt_or_lt_of_key hkey hab

theorem bound_le_bound {s t : α} (ht : IsNumber t) (h : lt t s = false) :
    view.bound s false ≤ view.bound t true := by
  apply PartitionPoint.search_mono
  intro i hi
  rw [Bool.false_and, Bool.or_false] at hi
  rcases ht _ _ hi with hlt | hlt
  · rw [hlt, Bool.true_or]
  · rw [h] at hlt
    cases hlt

theorem bound_mono [LawfulWaveOrder α] {s t : α} (h : le s t = true) :
    view.bound s true ≤ view.bound t true := by
  apply PartitionPoint.search_mono
  intro i hi
  rw [Bool.true_and, Bool.or_eq_true] at hi ⊢
  rcases hi with hlt | heq
  · exact .inl (LawfulWaveOrder.lt_of_lt_of_le hlt h)
  · exact LawfulWaveOrder.lt_or_eq_of_eq_of_le heq h

/-- The samples are in nondecreasing order of time. -/
def TimesAscend (view : WaveQueryView α) : Prop :=
  ∀ i j, i < j → j < view.size → le (view.time i) (view.time j) = true

/-- On ordered times the binary search cuts where the predicate stops holding. -/
theorem TimesAscend.bound_splits [LawfulWaveOrder α] (h : view.TimesAscend) (t : α) (upper : Bool) :
    PartitionPoint.Splits (fun i => lt (view.time i) t || (upper && eq (view.time i) t)) view.size
      (view.bound t upper) := by
  refine PartitionPoint.search_splits ?_ _ _ _ (Nat.le_refl _) (by omega) (by omega) (by omega)
  intro i j hij hj hheld
  rcases Nat.eq_or_lt_of_le hij with rfl | hlt
  · exact hheld
  · have hle := h i j hlt hj
    rcases Bool.or_eq_true_iff.mp hheld with hbefore | hequal
    · rw [LawfulWaveOrder.lt_of_le_of_lt hle hbefore, Bool.true_or]
    · obtain ⟨hupper, hequal⟩ := Bool.and_eq_true_iff.mp hequal
      rw [hupper]
      rcases LawfulWaveOrder.lt_or_eq_of_le_of_eq hle hequal with h | h
      · rw [h, Bool.true_or]
      · rw [h, Bool.true_and, Bool.or_true]

theorem TimesAscend.lt_bound [LawfulWaveOrder α] (h : view.TimesAscend) {t : α} {i : ℕ}
    (hi : i < view.bound t false) : lt (view.time i) t = true := by
  have := (h.bound_splits t false).below i hi
  simpa using this

theorem TimesAscend.bound_le [LawfulWaveOrder α] (h : view.TimesAscend) {t : α} {i : ℕ}
    (hi : view.bound t false ≤ i) (hsize : i < view.size) : lt (view.time i) t = false := by
  have := (h.bound_splits t false).above i hi hsize
  simpa using this

theorem ordered_lt [LawfulWaveScalar α] (minTime maxTime : α) :
    lt (ordered minTime maxTime).2 (ordered minTime maxTime).1 = false := by
  unfold ordered
  by_cases h : lt maxTime minTime = true
  · rw [if_pos h]
    exact Bool.eq_false_iff.mpr (lt_asymm h)
  · rw [if_neg h]
    exact Bool.eq_false_iff.mpr h

theorem ordered_ordered [LawfulWaveScalar α] (minTime maxTime : α) :
    ordered (ordered minTime maxTime).1 (ordered minTime maxTime).2 = ordered minTime maxTime := by
  have h := ordered_lt minTime maxTime
  rw [ordered, if_neg (by rw [h]; exact Bool.false_ne_true)]

theorem range_ordered [LawfulWaveScalar α] (minTime maxTime : α) (guards : Bool) :
    view.range (ordered minTime maxTime).1 (ordered minTime maxTime).2 guards =
      view.range minTime maxTime guards := by
  unfold range
  rw [ordered_ordered]

/-- The positions of a range without its neighbours, and what the neighbours add. -/
structure GuardedRange (view : WaveQueryView α) (viewport selected : ℕ × ℕ) : Prop where
  nonempty : viewport.1 ≤ viewport.2
  size : viewport.2 ≤ view.size
  begin_le : selected.1 ≤ viewport.1
  le_fin : viewport.2 ≤ selected.2
  fin_size : selected.2 ≤ view.size

theorem range_guarded [LawfulWaveScalar α] {minTime maxTime : α}
    (hnumber : IsNumber (ordered minTime maxTime).2) (guards : Bool) :
    GuardedRange view (view.range minTime maxTime false) (view.range minTime maxTime guards) := by
  have hle := @bound_le_bound _ _ view _ _ hnumber (ordered_lt minTime maxTime)
  have hsize := @bound_le_size _ _ view (ordered minTime maxTime).2 true
  unfold range
  simp only [Bool.false_and, Bool.false_eq_true, if_false]
  refine ⟨hle, hsize, ?_, ?_, ?_⟩
  · dsimp only
    split
    · omega
    · exact Nat.le_refl _
  · dsimp only
    split
    · omega
    · exact Nat.le_refl _
  · dsimp only
    split
    · rename_i h
      simp only [Bool.and_eq_true, decide_eq_true_eq] at h
      omega
    · exact hsize

/-! ### Summaries -/

section Summary

variable [LawfulWaveScalar α]

/-- **A summary is a scan**, whether it comes from the index or not. -/
theorem summary_eq (hsync : view.channel.Synced) (hle : begin ≤ fin) (hsize : fin ≤ view.size) :
    view.summary begin fin =
      scanOf (sampleAt view.channel.samples view.channel.sampleIndexOffset)
        (begin + view.channel.sampleIndexOffset) (fin + view.channel.sampleIndexOffset) := by
  have hfin : min fin view.channel.samples.length = fin := Nat.min_eq_left hsize
  have hbegin : min begin view.channel.samples.length = begin := Nat.min_eq_left (hle.trans hsize)
  unfold summary
  split
  · rename_i index hindex
    rw [(hsync index hindex).query_eq, hbegin, hfin]
    rfl
  · dsimp only [size]
    rw [hbegin, hfin, Nat.max_eq_right hle]
    rfl

theorem summary_count_empty (hsync : view.channel.Synced) (hsize : begin ≤ view.size) :
    (view.summary begin begin).count = 0 := by
  rw [summary_eq hsync (Nat.le_refl begin) hsize, scanOf_empty _ (Nat.le_refl _)]
  rfl

/-- A position that a summary names by its global index. -/
def localIndex (view : WaveQueryView α) (index : ℕ) : ℕ := index - view.channel.sampleIndexOffset

/-- No finite value of the range is better than that at the position. -/
def BestOf (better : α → α → Bool) (view : WaveQueryView α) (begin fin index : ℕ) : Prop :=
  ∀ i, begin ≤ i → i < fin → isFinite (view.rawSample i).value = true →
    isFinite (view.rawSample index).value = true ∧
      better (view.rawSample i).value (view.rawSample index).value = false

/-- What the summary of a range that is not empty says, in positions of the channel. -/
structure Summarized (view : WaveQueryView α) (begin fin : ℕ) (s : WaveSummary α) : Prop where
  count : s.count ≠ 0
  first : view.localIndex s.first = begin
  last : view.localIndex s.last = fin - 1
  minimum : begin ≤ view.localIndex s.minimum ∧ view.localIndex s.minimum < fin
  maximum : begin ≤ view.localIndex s.maximum ∧ view.localIndex s.maximum < fin
  least : BestOf lt view begin fin (view.localIndex s.minimum)
  greatest : BestOf (fun a b => lt b a) view begin fin (view.localIndex s.maximum)
  rise : lt zero s.rise = true →
    begin ≤ view.localIndex s.riseBefore ∧ view.localIndex s.riseBefore + 1 < fin ∧
      view.localIndex (s.riseBefore + 1) = view.localIndex s.riseBefore + 1
  fall : lt zero s.fall = true →
    begin ≤ view.localIndex s.fallBefore ∧ view.localIndex s.fallBefore + 1 < fin ∧
      view.localIndex (s.fallBefore + 1) = view.localIndex s.fallBefore + 1

omit [LawfulWaveScalar α] in
theorem BestOf.of_scan {better : α → α → Bool} {extreme : α × ℕ}
    (h : ScanExtreme better (sampleAt view.channel.samples view.channel.sampleIndexOffset)
      (begin + view.channel.sampleIndexOffset) (fin + view.channel.sampleIndexOffset) extreme) :
    (begin ≤ view.localIndex extreme.2 ∧ view.localIndex extreme.2 < fin) ∧
      BestOf better view begin fin (view.localIndex extreme.2) := by
  obtain ⟨⟨hle, hlt⟩, hvalue, hbest⟩ := h
  have hat : view.localIndex extreme.2 + view.channel.sampleIndexOffset = extreme.2 :=
    Nat.sub_add_cancel (by omega)
  rw [← hat, sampleAt_eq] at hvalue
  refine ⟨?_, ?_⟩
  · unfold localIndex
    omega
  · intro i hi hfin hfinite
    have hone := hbest (i + view.channel.sampleIndexOffset) (by omega) (by omega)
    rw [sampleAt_eq, hvalue] at hone
    exact hone hfinite

theorem summary_summarized (hsync : view.channel.Synced) (hlt : begin < fin)
    (hsize : fin ≤ view.size) : Summarized view begin fin (view.summary begin fin) := by
  rw [summary_eq hsync hlt.le hsize]
  have hglobal : begin + view.channel.sampleIndexOffset < fin + view.channel.sampleIndexOffset := by
    omega
  have hends := @scanOf_ends _ _ (sampleAt view.channel.samples view.channel.sampleIndexOffset) _ _
    hglobal
  obtain ⟨hminimum, hleast⟩ := BestOf.of_scan (scanOf_least hglobal)
  obtain ⟨hmaximum, hgreatest⟩ := BestOf.of_scan (scanOf_greatest hglobal)
  refine ⟨scanOf_count_ne_zero hglobal, ?_, ?_, hminimum, hmaximum, hleast, hgreatest, ?_, ?_⟩
  · rw [localIndex, hends.first, Nat.add_sub_cancel]
  · rw [localIndex, hends.last]
    omega
  · intro hpositive
    obtain ⟨hbefore, hafter⟩ := scanOf_rise hglobal hpositive
    unfold WaveSummary.riseJump at hbefore hafter
    dsimp only [localIndex] at *
    omega
  · intro hpositive
    obtain ⟨hbefore, hafter⟩ := scanOf_fall hglobal hpositive
    unfold WaveSummary.fallJump at hbefore hafter
    dsimp only [localIndex] at *
    omega

omit [WaveArith α] [LawfulWaveScalar α] in
theorem constantBit_iff (bit : Fin 64) (s : WaveSummary α) :
    constantBit bit s = true ↔ (s.bitsAnd ^^^ s.bitsOr).toNat.testBit bit = false := by
  unfold constantBit
  rw [decide_eq_true_eq, ← Bool.not_eq_true, ← and_mask_ne_zero, Ne, not_not]

/-- **A bit is constant in a summary where it is constant in the samples.** -/
theorem constantBit_summary (hsync : view.channel.Synced) (hlt : begin < fin)
    (hsize : fin ≤ view.size) (bit : Fin 64) :
    constantBit bit (view.summary begin fin) = true ↔
      ∀ i, begin ≤ i → i < fin → view.bitState bit i = view.bitState bit begin := by
  rw [summary_eq hsync hlt.le hsize]
  have hglobal : begin + view.channel.sampleIndexOffset < fin + view.channel.sampleIndexOffset := by
    omega
  have hconstant := @scanOf_constant _ _
    (sampleAt view.channel.samples view.channel.sampleIndexOffset) _ _ hglobal bit
  rw [constantBit_iff, hconstant]
  constructor
  · intro h i hi hfin
    have hone := h (i + view.channel.sampleIndexOffset) (by omega) (by omega)
    unfold bitsOf at hone
    rw [sampleAt_eq, sampleAt_eq] at hone
    rw [bitState_eq, bitState_eq]
    exact hone
  · intro h i hi hfin
    have hone := h (i - view.channel.sampleIndexOffset) (by omega) (by omega)
    rw [bitState_eq, bitState_eq, ← sampleAt_eq, ← sampleAt_eq, Nat.sub_add_cancel (by omega)] at hone
    exact hone

end Summary

end WaveQueryView

end ProtoScope.Plot
