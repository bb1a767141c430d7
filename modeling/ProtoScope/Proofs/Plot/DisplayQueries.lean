/-
The searches of the cursor on windows of samples, in exact arithmetic.

A search passes over the samples too far from the queried time.  So a search on a window of
samples does what the same search does on a smaller window, as long as that one still holds
every sample near the time with a neighbour on either side; only the indices are counted from
another sample.  The nearest sample is found by looking next to the time alone.
-/
import ProtoScope.Library.WindowScan
import ProtoScope.Plot.DisplayData
import ProtoScope.Proofs.Plot.QueryViews

namespace ProtoScope.Plot

open ProtoScope.Library
open WaveScalar WaveArith WaveDisplayChannel ExtremeSearch PartitionPoint

/-! ### Exact arithmetic -/

@[simp] theorem lt_rat (a b : ℚ) : lt a b = decide (a < b) := rfl

@[simp] theorem le_rat (a b : ℚ) : le a b = decide (a ≤ b) := rfl

@[simp] theorem isFinite_rat (a : ℚ) : isFinite a = true := rfl

@[simp] theorem zero_rat : (zero : ℚ) = 0 := rfl

@[simp] theorem sub_rat (a b : ℚ) : sub a b = a - b := rfl

@[simp] theorem add_rat (a b : ℚ) : add a b = a + b := rfl

@[simp] theorem half_rat (a : ℚ) : half a = a / 2 := by
  have hmul : half a = 1 / 2 * a := rfl
  rw [hmul]
  ring

@[simp] theorem fabs_rat (a : ℚ) : fabs a = |a| := by
  unfold fabs
  by_cases h : a < 0
  · rw [if_pos (show lt a zero = true from decide_eq_true h), abs_of_neg h]
    rfl
  · rw [if_neg (show ¬ lt a zero = true by simpa using h), abs_of_nonneg (not_lt.mp h)]

theorem kMathEpsilon_pos : (0 : ℚ) < kMathEpsilon := by decide +kernel

namespace WaveQueryView

variable {view : WaveQueryView ℚ} {begin fin i j : ℕ} {t : ℚ}

/-- The times of the samples increase strictly. -/
def TimesIncrease (view : WaveQueryView ℚ) : Prop :=
  ∀ i j, i < j → j < view.size → view.time i < view.time j

theorem TimesIncrease.ascend (h : view.TimesIncrease) : view.TimesAscend :=
  fun i j hij hj => decide_eq_true (h i j hij hj).le

theorem TimesIncrease.le_of_le (h : view.TimesIncrease) (hij : i ≤ j) (hj : j < view.size) :
    view.time i ≤ view.time j := by
  rcases Nat.eq_or_lt_of_le hij with rfl | hlt
  · exact le_refl _
  · exact (h i j hlt hj).le

theorem TimesIncrease.time_injective (h : view.TimesIncrease) (hi : i < view.size)
    (hj : j < view.size) (htime : view.time i = view.time j) : i = j := by
  rcases Nat.lt_trichotomy i j with hlt | heq | hlt
  · exact absurd htime (h i j hlt hj).ne
  · exact heq
  · exact absurd htime (h j i hlt hi).ne'

/-- Where the two bounds of a range cut the samples. -/
theorem TimesIncrease.bounds (h : view.TimesIncrease) (t : ℚ) :
    (∀ i < view.bound t false, view.time i < t) ∧
      (∀ i, view.bound t false ≤ i → i < view.size → t ≤ view.time i) ∧
      (∀ i < view.bound t true, view.time i ≤ t) ∧
      ∀ i, view.bound t true ≤ i → i < view.size → t < view.time i := by
  have hlower := h.ascend.bound_splits t false
  have hupper := h.ascend.bound_splits t true
  refine ⟨fun i hi => ?_, fun i hi hsize => ?_, fun i hi => ?_, fun i hi hsize => ?_⟩
  · simpa using hlower.below i hi
  · simpa using hlower.above i hi hsize
  · have hbelow := hupper.below i hi
    rw [Bool.true_and, Bool.or_eq_true, lt_rat, decide_eq_true_eq] at hbelow
    rcases hbelow with hlt | heq
    · exact hlt.le
    · exact (of_decide_eq_true heq).le
  · have habove := hupper.above i hi hsize
    rw [Bool.true_and, Bool.or_eq_false_iff, lt_rat, decide_eq_false_iff_not] at habove
    exact lt_of_le_of_ne (not_lt.mp habove.1) fun heq =>
      absurd habove.2 (by rw [show eq (view.time i) t = true from decide_eq_true heq.symm]; simp)

/-- A guarded range holds every sample near the time, with a neighbour on either side of it. -/
structure Surrounds (view : WaveQueryView ℚ) (t distance : ℚ) (first last : ℕ) : Prop where
  lt : 0 < view.size → first < last
  size : last ≤ view.size
  /-- All samples before the first one are too early, and so is it unless it is the first. -/
  before : ∀ i ≤ first, first ≠ 0 → view.time i < t - distance
  after : ∀ i, last ≤ i + 1 → last ≠ view.size → i < view.size → t + distance < view.time i

theorem TimesIncrease.surrounds (h : view.TimesIncrease) {distance : ℚ} (hdistance : 0 ≤ distance) :
    Surrounds view t distance (view.range (t - distance) (t + distance) true).1
      (view.range (t - distance) (t + distance) true).2 := by
  have hordered : ordered (t - distance) (t + distance) = (t - distance, t + distance) := by
    unfold ordered
    rw [if_neg]
    simp only [lt_rat, decide_eq_true_eq, not_lt]
    linarith
  obtain ⟨hlower, -, -, -⟩ := h.bounds (t - distance)
  obtain ⟨-, -, -, hupper⟩ := h.bounds (t + distance)
  have hle : view.bound (t - distance) false ≤ view.bound (t + distance) true := by
    by_contra hlt
    have hsize := @bound_le_size _ _ view (t - distance) false
    have hbefore := hlower (view.bound (t + distance) true) (by omega)
    have hafter := hupper (view.bound (t + distance) true) (Nat.le_refl _) (by omega)
    linarith
  have hsize := @bound_le_size _ _ view (t + distance) true
  unfold range
  rw [hordered]
  simp only [Bool.true_and, decide_eq_true_eq]
  refine ⟨fun hpos => ?_, ?_, fun i hi hne => ?_, fun i hi hne hlt => ?_⟩
  · split <;> split <;> omega
  · split <;> omega
  · split at hi
    · exact hlower i (by omega)
    · rename_i hzero
      rw [if_neg hzero] at hne
      omega
  · split at hi
    · exact hupper i (by omega) hlt
    · rename_i hend
      rw [if_neg hend] at hne
      omega

/-! ### Windows of samples -/

/-- The samples `[begin, fin)` of a view, materialised. -/
def sampleWindow (view : WaveQueryView ℚ) (begin fin : ℕ) : WaveDisplayChannel ℚ where
  samples := (List.range' begin (fin - begin)).map view.sample
  actualValues := (List.range' begin (fin - begin)).map view.actual

@[simp] theorem sampleWindow_length :
    (view.sampleWindow begin fin).samples.length = fin - begin := by
  simp [sampleWindow]

theorem sampleWindow_getElem? (hj : begin + j < fin) :
    (view.sampleWindow begin fin).samples[j]? = some (view.sample (begin + j)) := by
  have hlt : j < fin - begin := by omega
  simp [sampleWindow, List.getElem?_map, List.getElem?_range' hlt]

theorem sampleWindow_getD (hj : begin + j < fin) :
    (view.sampleWindow begin fin).samples.getD j default = view.sample (begin + j) := by
  rw [List.getD_eq_getElem?_getD, sampleWindow_getElem? hj, Option.getD_some]

theorem sampleWindow_actual (hj : begin + j < fin) (fallback : ℚ) :
    (view.sampleWindow begin fin).resolveActualValue j fallback = view.actual (begin + j) := by
  have hlt : j < fin - begin := by omega
  simp [resolveActualValue, sampleWindow, List.getD_eq_getElem?_getD,
    List.getElem?_map, List.getElem?_range' hlt]

/-- The readout of sample `i`, its index counted from `base`. -/
def readoutAt (view : WaveQueryView ℚ) (channelIndex base i : ℕ) : CursorReadout ℚ where
  valid := true
  channelIndex := channelIndex
  sampleIndex := i - base
  time := view.time i
  value := view.actual i
  displayValue := (view.sample i).value

theorem sampleWindow_readout (hj : begin + j < fin) (channelIndex : ℕ) :
    (view.sampleWindow begin fin).makeCursorReadout channelIndex j =
      view.readoutAt channelIndex begin (begin + j) := by
  unfold makeCursorReadout readoutAt
  rw [sampleWindow_getD hj]
  dsimp only
  rw [sampleWindow_actual hj, Nat.add_sub_cancel_left]
  rfl

/-! ### The nearest sample -/

/-- The readout is that of a nearest sample among the positions, if one is within reach. -/
inductive IsNearest (view : WaveQueryView ℚ) (channelIndex base : ℕ) (t distance : ℚ)
    (positions : Set ℕ) : Option (CursorReadout ℚ) → Prop
  | none (hfar : ∀ i ∈ positions, distance < |view.time i - t|) :
      IsNearest view channelIndex base t distance positions none
  | some {i : ℕ} (hi : i ∈ positions) (hnear : |view.time i - t| ≤ distance)
      (hleast : ∀ k ∈ positions, |view.time i - t| ≤ |view.time k - t|) :
      IsNearest view channelIndex base t distance positions
        (some (view.readoutAt channelIndex base i))

namespace IsNearest

variable {channelIndex base : ℕ} {distance : ℚ} {positions positions' : Set ℕ}
  {result result' : Option (CursorReadout ℚ)}

/-- More positions change nothing where each within reach has a nearer one among the first. -/
theorem widen (h : IsNearest view channelIndex base t distance positions result)
    (hsub : positions ⊆ positions')
    (hreach : ∀ k ∈ positions', |view.time k - t| ≤ distance →
      ∃ i ∈ positions, |view.time i - t| ≤ |view.time k - t|) :
    IsNearest view channelIndex base t distance positions' result := by
  cases h with
  | none hfar =>
    refine none fun k hk => ?_
    by_contra hnear
    obtain ⟨i, hi, hle⟩ := hreach k hk (not_lt.mp hnear)
    exact absurd (hfar i hi) (not_lt.mpr (hle.trans (not_lt.mp hnear)))
  | some hi hnear hleast =>
    refine some (hsub hi) hnear fun k hk => ?_
    by_cases hk' : |view.time k - t| ≤ distance
    · obtain ⟨j, hj, hle⟩ := hreach k hk hk'
      exact (hleast j hj).trans hle
    · exact hnear.trans (not_le.mp hk').le

/-- Where one search finds something the other does, and at the same distance. -/
theorem agree (h : IsNearest view channelIndex base t distance positions result)
    (h' : IsNearest view channelIndex base t distance positions result') :
    result.isSome = result'.isSome ∧
      ∀ r ∈ result, ∀ r' ∈ result', |r.time - t| = |r'.time - t| := by
  cases h with
  | none hfar =>
    cases h' with
    | none => exact ⟨rfl, fun r hr => absurd hr (Option.not_mem_none r)⟩
    | some hi hnear => exact absurd (hfar _ hi) (not_lt.mpr hnear)
  | some hi hnear hleast =>
    cases h' with
    | none hfar => exact absurd (hfar _ hi) (not_lt.mpr hnear)
    | some hi' _ hleast' =>
      refine ⟨rfl, fun r hr r' hr' => ?_⟩
      obtain rfl := Option.mem_some_iff.mp hr
      obtain rfl := Option.mem_some_iff.mp hr'
      exact le_antisymm (hleast _ hi') (hleast' _ hi)

/-- A position that is compared with the best so far joins the others. -/
theorem insert (h : IsNearest view channelIndex base t distance positions result) (i : ℕ) :
    IsNearest view channelIndex base t distance (Insert.insert i positions)
      (if distance < |view.time i - t| then result
      else if result.all (fun r => decide (|view.time i - t| < |r.time - t|)) then
        Option.some (view.readoutAt channelIndex base i)
      else result) := by
  by_cases hfar : distance < |view.time i - t|
  · rw [if_pos hfar]
    refine h.widen (Set.subset_insert ..) fun k hk hnear => ?_
    rcases Set.mem_insert_iff.mp hk with rfl | hk
    · exact absurd hfar (not_lt.mpr hnear)
    · exact ⟨k, hk, le_refl _⟩
  rw [if_neg hfar]
  have hnear : |view.time i - t| ≤ distance := not_lt.mp hfar
  cases h with
  | none hnone =>
    refine some (Set.mem_insert ..) hnear fun k hk => ?_
    rcases Set.mem_insert_iff.mp hk with rfl | hk
    · exact le_refl _
    · exact hnear.trans (hnone k hk).le
  | @some j hj hj' hleast =>
    rw [Option.all_some]
    have htime : (view.readoutAt channelIndex base j).time = view.time j := rfl
    rw [htime]
    by_cases hcloser : |view.time i - t| < |view.time j - t|
    · rw [if_pos (decide_eq_true hcloser)]
      refine some (Set.mem_insert ..) hnear fun k hk => ?_
      rcases Set.mem_insert_iff.mp hk with rfl | hk
      · exact le_refl _
      · exact hcloser.le.trans (hleast k hk)
    · rw [if_neg (by simpa using hcloser)]
      refine some (Set.mem_insert_of_mem _ hj) hj' fun k hk => ?_
      rcases Set.mem_insert_iff.mp hk with rfl | hk
      · exact not_lt.mp hcloser
      · exact hleast k hk

end IsNearest

variable {channelIndex : ℕ} {distance : ℚ}

theorem considerNearest_window (hj : begin + j < fin) (best : Option (CursorReadout ℚ)) :
    (view.sampleWindow begin fin).considerNearest channelIndex t distance best j =
      if distance < |view.time (begin + j) - t| then best
      else if best.all (fun r => decide (|view.time (begin + j) - t| < |r.time - t|)) then
        some (view.readoutAt channelIndex begin (begin + j))
      else best := by
  unfold considerNearest
  rw [sampleWindow_getElem? hj, sampleWindow_readout hj]
  have htime : (view.sample (begin + j)).time = view.time (begin + j) := rfl
  dsimp only
  rw [htime]
  simp only [lt_rat, fabs_rat, sub_rat, decide_eq_true_eq]
  cases best with
  | none => rfl
  | some found =>
    rw [Option.all_some]
    simp only [decide_eq_true_eq]

/-- `consider` compares one more position, if it is one. -/
theorem considerNearest_spec {positions : Set ℕ} {best : Option (CursorReadout ℚ)}
    (h : IsNearest view channelIndex begin t distance positions best)
    (hsub : positions ⊆ {i | begin ≤ i ∧ i < fin}) (j : ℕ) :
    ∃ positions', positions ⊆ positions' ∧ positions' ⊆ {i | begin ≤ i ∧ i < fin} ∧
      (begin + j < fin → begin + j ∈ positions') ∧
      IsNearest view channelIndex begin t distance positions'
        ((view.sampleWindow begin fin).considerNearest channelIndex t distance best j) := by
  by_cases hj : begin + j < fin
  · refine ⟨insert (begin + j) positions, Set.subset_insert .., ?_, fun _ => Set.mem_insert .., ?_⟩
    · exact Set.insert_subset ⟨Nat.le_add_right .., hj⟩ hsub
    · rw [considerNearest_window hj]
      exact h.insert (begin + j)
  · refine ⟨positions, Set.Subset.rfl, hsub, fun hlt => absurd hlt hj, ?_⟩
    have hnone : (view.sampleWindow begin fin).samples[j]? = none := by
      rw [List.getElem?_eq_none_iff, sampleWindow_length]
      omega
    unfold considerNearest
    rw [hnone]
    exact h

/-- Where the times of a window reach the queried one. -/
theorem TimesIncrease.find_window (h : view.TimesIncrease) (begin : ℕ) (hfin : fin ≤ view.size)
    (t : ℚ) :
    let lower := find (fun sample : WaveSample ℚ => lt sample.time t)
      (view.sampleWindow begin fin).samples
    lower ≤ fin - begin ∧ (∀ j < lower, view.time (begin + j) < t) ∧
      ∀ j, lower ≤ j → begin + j < fin → t ≤ view.time (begin + j) := by
  intro lower
  have hget : ∀ (j : ℕ) (hj : j < (view.sampleWindow begin fin).samples.length),
      (view.sampleWindow begin fin).samples[j].time = view.time (begin + j) := by
    intro j hj
    have hlt : begin + j < fin := by
      rw [sampleWindow_length] at hj
      omega
    obtain ⟨_, heq⟩ := List.getElem?_eq_some_iff.mp (@sampleWindow_getElem? view begin fin j hlt)
    rw [heq]
    rfl
  have hdown : PartitionPoint.Downward (fun sample : WaveSample ℚ => lt sample.time t)
      (view.sampleWindow begin fin).samples := by
    refine List.pairwise_iff_getElem.mpr fun i j hi hj hij hbefore => ?_
    dsimp only at hbefore ⊢
    rw [hget, lt_rat, decide_eq_true_eq] at hbefore ⊢
    rw [sampleWindow_length] at hj
    exact (h (begin + i) (begin + j) (by omega) (by omega)).trans hbefore
  have hle := find_le hdown
  rw [sampleWindow_length] at hle
  refine ⟨hle, fun j hj => ?_, fun j hj hlt => ?_⟩
  · have hlen : j < (view.sampleWindow begin fin).samples.length := by
      rw [sampleWindow_length]
      omega
    have hbefore := before_of_lt_find hdown hj hlen
    rwa [hget, lt_rat, decide_eq_true_eq] at hbefore
  · have hlen : j < (view.sampleWindow begin fin).samples.length := by
      rw [sampleWindow_length]
      omega
    have hafter := not_before_of_find_le hdown hj hlen
    rw [hget, lt_rat, decide_eq_false_iff_not] at hafter
    exact not_lt.mp hafter

/-- Of two samples on one side of the time the one between is nearer. -/
theorem TimesIncrease.nearer_before (h : view.TimesIncrease) (hij : i ≤ j) (hj : j < view.size)
    (ht : view.time j ≤ t) : |view.time j - t| ≤ |view.time i - t| := by
  have hle := h.le_of_le hij hj
  rw [abs_of_nonpos (by linarith), abs_of_nonpos (by linarith)]
  linarith

theorem TimesIncrease.nearer_after (h : view.TimesIncrease) (hij : i ≤ j) (hj : j < view.size)
    (ht : t ≤ view.time i) : |view.time i - t| ≤ |view.time j - t| := by
  have hle := h.le_of_le hij hj
  rw [abs_of_nonneg (by linarith), abs_of_nonneg (by linarith)]
  linarith

/-- **The search among materialised samples finds a nearest one.** -/
theorem TimesIncrease.nearestSample (h : view.TimesIncrease) (hfin : fin ≤ view.size)
    (channelIndex : ℕ) (t distance : ℚ) :
    IsNearest view channelIndex begin t distance {i | begin ≤ i ∧ i < fin}
      ((view.sampleWindow begin fin).nearestSample channelIndex t distance) := by
  unfold WaveDisplayChannel.nearestSample
  by_cases hguard : ((view.sampleWindow begin fin).samples.isEmpty || !isFinite t ||
      !isFinite distance || lt distance zero) = true
  · rw [if_pos hguard]
    refine .none fun i hi => ?_
    simp only [isFinite_rat, Bool.not_true, Bool.or_false, Bool.or_eq_true, List.isEmpty_iff,
      lt_rat, zero_rat, decide_eq_true_eq] at hguard
    rcases hguard with hempty | hnegative
    · have hlength := @sampleWindow_length view begin fin
      rw [hempty, List.length_nil] at hlength
      obtain ⟨hle, hlt⟩ := hi
      omega
    · exact hnegative.trans_le (abs_nonneg _)
  rw [if_neg hguard]
  obtain ⟨hlower, hbelow, habove⟩ := h.find_window begin hfin t
  dsimp only
  generalize find (fun sample : WaveSample ℚ => lt sample.time t)
    (view.sampleWindow begin fin).samples = lower at hlower hbelow habove ⊢
  have hnothing : IsNearest view channelIndex begin t distance ∅ none :=
    .none fun i hi => absurd hi (Set.notMem_empty i)
  obtain ⟨first, -, hfirst, hat, hbest⟩ :=
    considerNearest_spec hnothing (Set.empty_subset {i | begin ≤ i ∧ i < fin}) lower
  -- the samples from the lower bound on are no nearer than it, those before no nearer than the last
  have hafter : ∀ k, begin ≤ k → k < fin → ¬ k < begin + lower →
      begin + lower < fin ∧ |view.time (begin + lower) - t| ≤ |view.time k - t| := by
    intro k hk hkfin hge
    have hlt : begin + lower < fin := by omega
    exact ⟨hlt, h.nearer_after (by omega) (by omega) (habove lower (Nat.le_refl _) hlt)⟩
  by_cases hzero : lower = 0
  · rw [if_neg (not_not.mpr hzero)]
    refine hbest.widen hfirst fun k hk _ => ?_
    obtain ⟨hlt, hle⟩ := hafter k hk.1 hk.2 (by have := hk.1; omega)
    exact ⟨begin + lower, hat hlt, hle⟩
  · rw [if_pos hzero]
    obtain ⟨second, hsub, hsecond, hprevious, hbest⟩ := considerNearest_spec hbest hfirst (lower - 1)
    refine hbest.widen hsecond fun k hk _ => ?_
    by_cases hside : k < begin + lower
    · have hlast := hbelow (lower - 1) (by omega)
      exact ⟨begin + (lower - 1), hprevious (by omega),
        h.nearer_before (by omega) (by omega) hlast.le⟩
    · obtain ⟨hlt, hle⟩ := hafter k hk.1 hk.2 hside
      exact ⟨begin + lower, hsub (hat hlt), hle⟩

/-- What the loop over a source keeps: a nearest sample and its distance, which is the allowed
one before a sample is found. -/
def NearestState (view : WaveQueryView ℚ) (channelIndex base : ℕ) (t distance : ℚ)
    (positions : Set ℕ) (state : Option (CursorReadout ℚ) × ℚ) : Prop :=
  IsNearest view channelIndex base t distance positions state.1 ∧
    state.2 = state.1.elim distance fun readout => |readout.time - t|

theorem nearestOfSource_spec {source : SnapshotChannel ℚ} {positions : Set ℕ}
    {state : Option (CursorReadout ℚ) × ℚ}
    (h : NearestState view channelIndex source.visibleBegin t distance positions state) (i : ℕ) :
    NearestState view channelIndex source.visibleBegin t distance (insert i positions)
      (nearestOfSource view source channelIndex t false state i) := by
  obtain ⟨result, reach⟩ := state
  obtain ⟨hnearest, hreach⟩ := h
  have hinsert := hnearest.insert i
  unfold nearestOfSource
  have htime : (view.sample i).time = view.time i := rfl
  dsimp only at hreach hinsert ⊢
  simp only [htime, fabs_rat, sub_rat, le_rat, lt_rat]
  cases result with
  | none =>
    dsimp only [Option.elim_none] at hreach
    subst hreach
    rw [Option.all_none, if_pos rfl] at hinsert
    by_cases hfar : reach < |view.time i - t|
    · rw [if_pos hfar] at hinsert
      rw [if_neg (by simpa using hfar)]
      exact ⟨hinsert, rfl⟩
    · rw [if_neg hfar] at hinsert
      rw [if_pos (by simpa using hfar)]
      exact ⟨hinsert, rfl⟩
  | some readout =>
    dsimp only [Option.elim_some] at hreach
    subst hreach
    rw [Option.all_some] at hinsert
    simp only [decide_eq_true_eq] at hinsert
    have hwithin : |readout.time - t| ≤ distance := by
      cases hnearest with
      | some hi hnear hleast => exact hnear
    by_cases hcloser : |view.time i - t| < |readout.time - t|
    · rw [if_neg (not_lt.mpr (hcloser.le.trans hwithin)), if_pos hcloser] at hinsert
      rw [if_pos (by simp [hcloser, hcloser.le])]
      exact ⟨hinsert, rfl⟩
    · rw [if_neg hcloser, ite_self] at hinsert
      rw [if_neg (by simp [hcloser])]
      exact ⟨hinsert, rfl⟩

theorem nearestOfSource_foldl {source : SnapshotChannel ℚ} (indices : List ℕ) {positions : Set ℕ}
    {state : Option (CursorReadout ℚ) × ℚ}
    (h : NearestState view channelIndex source.visibleBegin t distance positions state) :
    NearestState view channelIndex source.visibleBegin t distance
      (positions ∪ {i | i ∈ indices})
      (indices.foldl (nearestOfSource view source channelIndex t false)
        state) := by
  induction indices generalizing positions state with
  | nil => simpa using h
  | cons i indices ih =>
    rw [List.foldl_cons]
    have hnext := ih (nearestOfSource_spec h i)
    have hsame : insert i positions ∪ {k | k ∈ indices} = positions ∪ {k | k ∈ i :: indices} := by
      ext k
      simp only [Set.mem_union, Set.mem_insert_iff, Set.mem_ofPred_eq, List.mem_cons]
      tauto
    rwa [hsame] at hnext

/-- **The loop over a source finds a nearest one of the samples it looks at.** -/
theorem nearest_of_range (source : SnapshotChannel ℚ) (channelIndex : ℕ) (t distance : ℚ)
    (first last : ℕ) :
    IsNearest view channelIndex source.visibleBegin t distance {i | first ≤ i ∧ i < last}
      ((List.range' first (last - first)).foldl
        (nearestOfSource view source channelIndex t false)
        (none, distance)).1 := by
  have hstart : NearestState view channelIndex source.visibleBegin t distance ∅
      ((none, distance) : Option (CursorReadout ℚ) × ℚ) :=
    ⟨.none fun i hi => absurd hi (Set.notMem_empty i), rfl⟩
  have hend := (nearestOfSource_foldl (List.range' first (last - first)) hstart).1
  have hsame : (∅ ∪ {i | i ∈ List.range' first (last - first)} : Set ℕ) =
      {i | first ≤ i ∧ i < last} := by
    ext i
    simp only [Set.empty_union, Set.mem_ofPred_eq, List.mem_range'_1]
    omega
  rwa [hsame] at hend

/-- The samples next to the time, as far as they are visible, hold a nearest visible one, where
all that is near lies in the visible part. -/
theorem TimesIncrease.nearest_of_source (h : view.TimesIncrease) {source : SnapshotChannel ℚ}
    (hfin : source.visibleEnd ≤ view.size) (hdistance : 0 ≤ distance)
    (hbegin : source.visibleBegin ≤ (view.range (t - distance) (t + distance) true).1)
    (hend : (view.range (t - distance) (t + distance) true).2 ≤ source.visibleEnd)
    (channelIndex : ℕ) :
    let range := view.range t t true
    let first := max range.1 source.visibleBegin
    let last := min range.2 source.visibleEnd
    IsNearest view channelIndex source.visibleBegin t distance
      {i | source.visibleBegin ≤ i ∧ i < source.visibleEnd}
      ((List.range' first (last - first)).foldl
        (nearestOfSource view source channelIndex t false)
        (none, distance)).1 := by
  intro range first last
  have hsurrounds : Surrounds view t distance _ _ := h.surrounds hdistance
  have hnext : Surrounds view t 0 range.1 range.2 := by
    have hzero := @TimesIncrease.surrounds view t h 0 (le_refl 0)
    rwa [sub_zero, add_zero] at hzero
  refine (nearest_of_range source channelIndex t distance first last).widen ?_ ?_
  · intro i hi
    exact ⟨(le_max_right ..).trans hi.1, hi.2.trans_le (min_le_right ..)⟩
  · rintro k ⟨hbeginK, hendK⟩ -
    have hlt := hnext.lt (by omega)
    have hsize := hnext.size
    by_cases hin : first ≤ k ∧ k < last
    · exact ⟨k, hin, le_refl _⟩
    rcases Nat.lt_or_ge k range.1 with hbefore | hge
    · have hearly : view.time range.1 < t := by
        have := hnext.before range.1 (Nat.le_refl _) (by omega)
        linarith
      have hvisible : range.1 < (view.range (t - distance) (t + distance) true).2 := by
        by_contra hout
        have := hsurrounds.after range.1 (by omega) (by omega) (by omega)
        linarith
      exact ⟨range.1, ⟨by omega, by omega⟩,
        h.nearer_before hbefore.le (by omega) hearly.le⟩
    · have hafter : range.2 ≤ k := by omega
      have hlate : t < view.time (range.2 - 1) := by
        have := hnext.after (range.2 - 1) (by omega) (by omega) (by omega)
        linarith
      have hvisible : (view.range (t - distance) (t + distance) true).1 ≤ range.2 - 1 := by
        by_contra hout
        have := hsurrounds.before (range.2 - 1) (by omega) (by omega)
        linarith
      exact ⟨range.2 - 1, ⟨by omega, by omega⟩,
        h.nearer_after (by omega) (by omega) hlate.le⟩

end WaveQueryView

/-! ### The strongest edge -/

/-- The readout with its index counted from `k` positions further back. -/
def CursorReadout.shift (k : ℕ) (readout : CursorReadout ℚ) : CursorReadout ℚ :=
  { readout with sampleIndex := readout.sampleIndex + k }

namespace WaveDisplayChannel

/-- The readout of the edge that ends at a sample. -/
def edgeReadout (channel : WaveDisplayChannel ℚ) (channelIndex index : ℕ) : CursorReadout ℚ :=
  let left := channel.samples.getD (index - 1) default
  let right := channel.samples.getD index default
  { valid := true
    channelIndex := channelIndex
    sampleIndex := index
    time := half (add left.time right.time)
    value := channel.resolveActualValue index right.value
    displayValue := half (add left.value right.value) }

def EdgeSearch.shift (k : ℕ) (state : EdgeSearch ℚ) : EdgeSearch ℚ :=
  { state with best := state.best.map (CursorReadout.shift k) }

variable {channel : WaveDisplayChannel ℚ} {channelIndex : ℕ} {centerTime maxTimeDistance : ℚ}

/-- A pair that is not flat and not too far away is weighed against the best so far. -/
theorem considerEdge_cases (state : EdgeSearch ℚ) (index : ℕ) :
    channel.considerEdge channelIndex centerTime maxTimeDistance state index = state ∨
      ∃ score distance,
        channel.considerEdge channelIndex centerTime maxTimeDistance state index =
          { best := some (channel.edgeReadout channelIndex index)
            bestScore := score
            bestDistance := some distance } := by
  unfold considerEdge
  dsimp only
  split
  · exact Or.inl rfl
  split
  · exact Or.inl rfl
  split
  · exact Or.inl rfl
  split
  · exact Or.inr ⟨_, _, rfl⟩
  · exact Or.inl rfl

theorem considerEdge_foldl {indices : List ℕ} {state : EdgeSearch ℚ} {first last : ℕ}
    (hindices : ∀ i ∈ indices, first ≤ i ∧ i < last)
    (hstate : ∀ r ∈ state.best, ∃ i, (first ≤ i ∧ i < last) ∧ r = channel.edgeReadout channelIndex i) :
    ∀ r ∈ (indices.foldl (channel.considerEdge channelIndex centerTime maxTimeDistance) state).best,
      ∃ i, (first ≤ i ∧ i < last) ∧ r = channel.edgeReadout channelIndex i := by
  induction indices generalizing state with
  | nil => exact hstate
  | cons i indices ih =>
    rw [List.foldl_cons]
    refine ih (fun k hk => hindices k (List.mem_cons_of_mem _ hk)) ?_
    rcases considerEdge_cases state i with hsame | ⟨score, distance, hnew⟩
    · rw [hsame]
      exact hstate
    · rw [hnew]
      intro r hr
      exact ⟨i, hindices i List.mem_cons_self, (Option.mem_some_iff.mp hr).symm⟩

/-- With a positive distance the search is its loop: one sample has no pairs. -/
theorem strongestEdge_eq (hpos : 0 < maxTimeDistance) :
    channel.strongestEdge channelIndex centerTime maxTimeDistance =
      ((List.range' 1 (channel.samples.length - 1)).foldl
        (channel.considerEdge channelIndex centerTime maxTimeDistance)
        { best := none, bestScore := zero, bestDistance := none }).best := by
  unfold strongestEdge
  have hle : le maxTimeDistance zero = false := decide_eq_false (not_le.mpr hpos)
  rw [isFinite_rat, isFinite_rat, hle, Bool.not_true, Bool.or_false, Bool.or_false, Bool.or_false]
  by_cases hshort : channel.samples.length < 2
  · have hzero : channel.samples.length - 1 = 0 := by omega
    rw [if_pos (decide_eq_true hshort), hzero]
    rfl
  · rw [if_neg (by simpa using hshort)]

theorem strongestEdge_none (hle : maxTimeDistance ≤ 0) :
    channel.strongestEdge channelIndex centerTime maxTimeDistance = none := by
  unfold strongestEdge
  rw [if_pos]
  simp [hle]

/-- What is found is an edge between two samples. -/
theorem strongestEdge_readout {r : CursorReadout ℚ}
    (h : r ∈ channel.strongestEdge channelIndex centerTime maxTimeDistance) :
    ∃ i, (1 ≤ i ∧ i < channel.samples.length) ∧ r = channel.edgeReadout channelIndex i := by
  unfold strongestEdge at h
  split at h
  · exact absurd h (Option.not_mem_none r)
  · refine considerEdge_foldl (fun i hi => ?_) (fun r hr => absurd hr (Option.not_mem_none r)) r h
    rw [List.mem_range'_1] at hi
    omega

end WaveDisplayChannel

namespace WaveQueryView

variable {view : WaveQueryView ℚ} {begin fin first last j channelIndex : ℕ}
  {centerTime maxTimeDistance : ℚ}

open WaveDisplayChannel

/-- A sample of a window is the same sample of a window within it. -/
theorem sampleWindow_shift (hbegin : begin ≤ first) (hfin : last ≤ fin) (hj : first + j < last) :
    (view.sampleWindow begin fin).samples.getD (j + (first - begin)) default =
      (view.sampleWindow first last).samples.getD j default := by
  rw [sampleWindow_getD hj, sampleWindow_getD (by omega)]
  congr 1
  omega

theorem sampleWindow_actual_shift (hbegin : begin ≤ first) (hfin : last ≤ fin)
    (hj : first + j < last) (fallback : ℚ) :
    (view.sampleWindow begin fin).resolveActualValue (j + (first - begin)) fallback =
      (view.sampleWindow first last).resolveActualValue j fallback := by
  rw [sampleWindow_actual hj, sampleWindow_actual (by omega)]
  congr 1
  omega

theorem considerEdge_shift (hbegin : begin ≤ first) (hfin : last ≤ fin) (hpos : 1 ≤ j)
    (hj : first + j < last) (state : EdgeSearch ℚ) :
    (view.sampleWindow begin fin).considerEdge channelIndex centerTime maxTimeDistance
        (EdgeSearch.shift (first - begin) state) (j + (first - begin)) =
      EdgeSearch.shift (first - begin) ((view.sampleWindow first last).considerEdge channelIndex
        centerTime maxTimeDistance state j) := by
  have hprevious : j + (first - begin) - 1 = j - 1 + (first - begin) := by omega
  unfold considerEdge
  rw [hprevious, sampleWindow_shift hbegin hfin (by omega), sampleWindow_shift hbegin hfin hj]
  dsimp only
  rw [sampleWindow_actual_shift hbegin hfin hj]
  simp only [apply_ite (EdgeSearch.shift (first - begin))]
  rfl

/-- A pair whose middle is too far away is passed over. -/
theorem considerEdge_far (hpos : 1 ≤ j) (hj : begin + j < fin)
    (hfar : maxTimeDistance <
      |(view.time (begin + j - 1) + view.time (begin + j)) / 2 - centerTime|)
    (state : EdgeSearch ℚ) :
    (view.sampleWindow begin fin).considerEdge channelIndex centerTime maxTimeDistance state j =
      state := by
  have hprevious : begin + (j - 1) = begin + j - 1 := by omega
  have htime : ∀ i, (view.sample i).time = view.time i := fun i => rfl
  unfold considerEdge
  rw [sampleWindow_getD hj, sampleWindow_getD (by omega), hprevious]
  simp only [isFinite_rat, Bool.not_true, Bool.or_self, Bool.false_eq_true, if_false, lt_rat,
    fabs_rat, sub_rat, half_rat, add_rat, htime]
  rw [if_pos (decide_eq_true hfar)]

/-- **The strongest edge of a window is that of the samples near the time.** -/
theorem TimesIncrease.strongestEdge_window (h : view.TimesIncrease) (hsize : fin ≤ view.size)
    (hsurrounds : Surrounds view centerTime maxTimeDistance first last) (hbegin : begin ≤ first)
    (hfin : last ≤ fin) (channelIndex : ℕ) :
    (view.sampleWindow begin fin).strongestEdge channelIndex centerTime maxTimeDistance =
      ((view.sampleWindow first last).strongestEdge channelIndex centerTime maxTimeDistance).map
        (CursorReadout.shift (first - begin)) := by
  rcases le_or_gt maxTimeDistance 0 with hle | hpositive
  · rw [strongestEdge_none hle, strongestEdge_none hle, Option.map_none]
  rw [strongestEdge_eq hpositive, strongestEdge_eq hpositive, sampleWindow_length,
    sampleWindow_length]
  rcases Nat.eq_zero_or_pos view.size with hempty | hpos
  · have hzero : fin - begin - 1 = 0 := by omega
    have hzero' : last - first - 1 = 0 := by omega
    rw [hzero, hzero']
    rfl
  have hlt := hsurrounds.lt hpos
  refine congrArg EdgeSearch.best (@WindowScan.foldl_window (EdgeSearch ℚ) _ _
    (EdgeSearch.shift (first - begin)) 1 (fin - begin - 1) (first - begin) (last - first - 1)
    (by omega) (fun state j hj hjfin hout => ?_) (fun state j hj hjlast => ?_) _ rfl)
  · refine considerEdge_far hj (by omega) ?_ state
    have hprevious := h.le_of_le (Nat.sub_le (begin + j) 1) (by omega)
    rcases hout with hbefore | hafter
    · have hearly := hsurrounds.before (begin + j) (by omega) (by omega)
      rw [lt_abs]
      right
      linarith
    · have hlate := hsurrounds.after (begin + j - 1) (by omega) (by omega) (by omega)
      rw [lt_abs]
      left
      linarith
  · exact considerEdge_shift hbegin hfin hj (by omega) state

end WaveQueryView

/-! ### The local extreme -/

namespace WaveDisplayChannel

def BestExtreme.shift (k : ℕ) (best : BestExtreme ℚ) : BestExtreme ℚ :=
  best.map fun found => (found.1.shift k, found.2)

def ExtremeSearch.shift (k : ℕ) (state : ExtremeSearch ℚ) : ExtremeSearch ℚ where
  bestLocalExtreme := BestExtreme.shift k state.bestLocalExtreme
  bestWindowExtreme := BestExtreme.shift k state.bestWindowExtreme
  windowRange := state.windowRange

theorem ExtremeSearch.result_shift (k : ℕ) (state : ExtremeSearch ℚ) :
    (shift k state).result = state.result.map (CursorReadout.shift k) := by
  obtain ⟨bestLocal, bestWindow, range⟩ := state
  unfold ExtremeSearch.result shift BestExtreme.shift
  cases bestLocal with
  | some found => rfl
  | none =>
    cases range with
    | none => rfl
    | some values =>
      dsimp only [Option.map_none]
      split
      · rw [Option.map_map, Option.map_map]
        rfl
      · rfl

end WaveDisplayChannel

namespace WaveQueryView

variable {view : WaveQueryView ℚ} {begin fin first last j channelIndex : ℕ}
  {centerTime maxTimeDistance : ℚ} {kind : WaveExtremeKind}

open WaveDisplayChannel

theorem acceptCandidate_shift (hbegin : begin ≤ first) (hfin : last ≤ fin) (hj : first + j < last)
    (best : BestExtreme ℚ) :
    (view.sampleWindow begin fin).acceptCandidate channelIndex kind centerTime
        (BestExtreme.shift (first - begin) best) (j + (first - begin)) =
      BestExtreme.shift (first - begin)
        ((view.sampleWindow first last).acceptCandidate channelIndex kind centerTime best j) := by
  have hreadout : (view.sampleWindow begin fin).makeCursorReadout channelIndex
        (j + (first - begin)) =
      ((view.sampleWindow first last).makeCursorReadout channelIndex j).shift (first - begin) := by
    unfold makeCursorReadout CursorReadout.shift
    rw [sampleWindow_shift hbegin hfin hj]
    dsimp only
    rw [sampleWindow_actual_shift hbegin hfin hj]
  unfold acceptCandidate
  rw [sampleWindow_shift hbegin hfin hj, hreadout]
  cases best with
  | none => rfl
  | some found =>
    simp only [BestExtreme.shift, Option.map_some, apply_ite (Option.map _)]
    rfl

/-- The loop over a window and that over a window within it do the same with a sample, if it
has the same neighbours in both or is passed over. -/
theorem considerExtreme_shift (hbegin : begin ≤ first) (hfin : last ≤ fin)
    (hj : first + j < last)
    (hborder : |view.time (first + j) - centerTime| ≤ maxTimeDistance →
      (j + (first - begin) = 0 ∨ fin - begin ≤ j + (first - begin) + 1 ↔
        j = 0 ∨ last - first ≤ j + 1))
    (state : ExtremeSearch ℚ) :
    (view.sampleWindow begin fin).considerExtreme channelIndex kind centerTime maxTimeDistance
        (shift (first - begin) state) (j + (first - begin)) =
      shift (first - begin) ((view.sampleWindow first last).considerExtreme
        channelIndex kind centerTime maxTimeDistance state j) := by
  have htime : ((view.sampleWindow first last).samples.getD j default).time =
      view.time (first + j) := by
    rw [sampleWindow_getD hj]
    rfl
  unfold considerExtreme
  rw [sampleWindow_shift hbegin hfin hj, sampleWindow_length, sampleWindow_length]
  dsimp only
  rw [htime]
  simp only [isFinite_rat, Bool.not_true, Bool.or_self, Bool.false_eq_true, if_false, lt_rat,
    fabs_rat, sub_rat, decide_eq_true_eq]
  by_cases hfar : maxTimeDistance < |view.time (first + j) - centerTime|
  · rw [if_pos hfar, if_pos hfar]
  rw [if_neg hfar, if_neg hfar]
  have hsame := hborder (not_lt.mp hfar)
  by_cases hedge : j = 0 ∨ last - first ≤ j + 1
  · rw [if_pos hedge, if_pos (hsame.mpr hedge)]
    simp only [shift, acceptCandidate_shift hbegin hfin hj]
  · rw [if_neg hedge, if_neg fun h => hedge (hsame.mp h)]
    have hprevious : j + (first - begin) - 1 = j - 1 + (first - begin) := by omega
    have hnext : j + (first - begin) + 1 = j + 1 + (first - begin) := by omega
    rw [hprevious, hnext, sampleWindow_shift hbegin hfin (by omega),
      sampleWindow_shift hbegin hfin (by omega)]
    simp only [shift, acceptCandidate_shift hbegin hfin hj]
    split
    · rfl
    · rfl

/-- A sample too far away is passed over. -/
theorem considerExtreme_far (hj : begin + j < fin)
    (hfar : maxTimeDistance < |view.time (begin + j) - centerTime|) (state : ExtremeSearch ℚ) :
    (view.sampleWindow begin fin).considerExtreme channelIndex kind centerTime maxTimeDistance
      state j = state := by
  have htime : (view.sample (begin + j)).time = view.time (begin + j) := rfl
  unfold considerExtreme
  rw [sampleWindow_getD hj]
  simp only [isFinite_rat, Bool.not_true, Bool.or_self, Bool.false_eq_true, if_false, lt_rat,
    fabs_rat, sub_rat, htime]
  rw [if_pos (decide_eq_true hfar)]

end WaveQueryView

namespace WaveDisplayChannel

variable {channel : WaveDisplayChannel ℚ} {channelIndex : ℕ} {centerTime maxTimeDistance : ℚ}
  {kind : WaveExtremeKind}

theorem localExtreme_eq (hpos : 0 < maxTimeDistance) :
    channel.localExtreme channelIndex centerTime maxTimeDistance kind =
      ((List.range' 0 channel.samples.length).foldl
        (channel.considerExtreme channelIndex kind centerTime maxTimeDistance)
        { bestLocalExtreme := none, bestWindowExtreme := none, windowRange := none }).result := by
  unfold localExtreme
  have hle : le maxTimeDistance zero = false := decide_eq_false (not_le.mpr hpos)
  rw [isFinite_rat, isFinite_rat, hle, Bool.not_true, Bool.or_false, Bool.or_false, Bool.or_false,
    List.range_eq_range']
  cases hsamples : channel.samples with
  | nil => rfl
  | cons sample samples => rfl

theorem localExtreme_none (hle : maxTimeDistance ≤ 0) :
    channel.localExtreme channelIndex centerTime maxTimeDistance kind = none := by
  unfold localExtreme
  rw [if_pos]
  simp [hle]

end WaveDisplayChannel

namespace WaveQueryView

variable {view : WaveQueryView ℚ} {begin fin first last j channelIndex : ℕ}
  {centerTime maxTimeDistance : ℚ} {kind : WaveExtremeKind}

open WaveDisplayChannel

/-- **The local extreme of a window is that of the samples near the time.** -/
theorem localExtreme_window (hsize : fin ≤ view.size)
    (hsurrounds : Surrounds view centerTime maxTimeDistance first last) (hbegin : begin ≤ first)
    (hfin : last ≤ fin) (channelIndex : ℕ) (kind : WaveExtremeKind) :
    (view.sampleWindow begin fin).localExtreme channelIndex centerTime maxTimeDistance kind =
      ((view.sampleWindow first last).localExtreme channelIndex centerTime maxTimeDistance
        kind).map (CursorReadout.shift (first - begin)) := by
  rcases le_or_gt maxTimeDistance 0 with hle | hpositive
  · rw [localExtreme_none hle, localExtreme_none hle, Option.map_none]
  rw [localExtreme_eq hpositive, localExtreme_eq hpositive, sampleWindow_length,
    sampleWindow_length, ← result_shift]
  rcases Nat.eq_zero_or_pos view.size with hempty | hpos
  · have hzero : fin - begin = 0 := by omega
    have hzero' : last - first = 0 := by omega
    rw [hzero, hzero']
    rfl
  have hlt := hsurrounds.lt hpos
  have hearly : ∀ i ≤ first, first ≠ 0 → maxTimeDistance < |view.time i - centerTime| := by
    intro i hi hne
    have := hsurrounds.before i hi hne
    rw [lt_abs]
    right
    linarith
  have hlate : ∀ i, last ≤ i + 1 → last ≠ view.size → i < view.size →
      maxTimeDistance < |view.time i - centerTime| := by
    intro i hi hne hlt
    have := hsurrounds.after i hi hne hlt
    rw [lt_abs]
    left
    linarith
  refine congrArg ExtremeSearch.result (@WindowScan.foldl_window (ExtremeSearch ℚ) _ _
    (shift (first - begin)) 0 (fin - begin) (first - begin) (last - first)
    (by omega) (fun state j hj hjfin hout => ?_) (fun state j hj hjlast => ?_) _ rfl)
  · refine considerExtreme_far (by omega) ?_ state
    rcases hout with hbefore | hafter
    · exact hearly (begin + j) (by omega) (by omega)
    · exact hlate (begin + j) (by omega) (by omega) (by omega)
  · refine considerExtreme_shift hbegin hfin (by omega) (fun hnear => ?_) state
    have hnotFirst : first ≠ 0 → j ≠ 0 := by
      rintro hne rfl
      exact absurd (hearly (first + 0) (Nat.le_refl _) hne) (not_lt.mpr hnear)
    have hnotLast : last ≠ view.size → first + j + 1 < last := by
      intro hne
      by_contra hge
      exact absurd (hlate (first + j) (by omega) hne (by omega)) (not_lt.mpr hnear)
    omega

end WaveQueryView

/-! ### What the search for an extreme has seen -/

namespace WaveDisplayChannel

variable {channel : WaveDisplayChannel ℚ} {channelIndex : ℕ} {centerTime maxTimeDistance : ℚ}
  {kind : WaveExtremeKind} {state : ExtremeSearch ℚ} {i : ℕ}

def valueAt (channel : WaveDisplayChannel ℚ) (i : ℕ) : ℚ := (channel.samples.getD i default).value

/-- The sample is within the distance. -/
def Near (channel : WaveDisplayChannel ℚ) (centerTime maxTimeDistance : ℚ) (i : ℕ) : Prop :=
  |(channel.samples.getD i default).time - centerTime| ≤ maxTimeDistance

/-- The sample has two neighbours and is a strict extreme between them. -/
def LocalAt (channel : WaveDisplayChannel ℚ) (kind : WaveExtremeKind) (i : ℕ) : Prop :=
  (0 < i ∧ i + 1 < channel.samples.length) ∧
    isLocalExtreme kind (channel.valueAt (i - 1)) (channel.valueAt i)
      (channel.valueAt (i + 1)) = true

theorem considerExtreme_cases (state : ExtremeSearch ℚ) (i : ℕ) :
    let next := channel.considerExtreme channelIndex kind centerTime maxTimeDistance state i
    (¬ channel.Near centerTime maxTimeDistance i → next = state) ∧
      (channel.Near centerTime maxTimeDistance i →
        next.windowRange = some (widen state.windowRange (channel.valueAt i)) ∧
        next.bestWindowExtreme =
          channel.acceptCandidate channelIndex kind centerTime state.bestWindowExtreme i ∧
        (¬ channel.LocalAt kind i → next.bestLocalExtreme = state.bestLocalExtreme) ∧
        (channel.LocalAt kind i → next.bestLocalExtreme =
          channel.acceptCandidate channelIndex kind centerTime state.bestLocalExtreme i)) := by
  intro next
  have hnext : next =
      channel.considerExtreme channelIndex kind centerTime maxTimeDistance state i := rfl
  unfold considerExtreme at hnext
  simp only [isFinite_rat, Bool.not_true, Bool.or_self, Bool.false_eq_true, if_false, lt_rat,
    fabs_rat, sub_rat, decide_eq_true_eq] at hnext
  by_cases hnear : channel.Near centerTime maxTimeDistance i
  · rw [if_neg (not_lt.mpr hnear)] at hnext
    refine ⟨fun hfar => absurd hnear hfar, fun _ => ?_⟩
    by_cases hborder : i = 0 ∨ channel.samples.length ≤ i + 1
    · rw [if_pos hborder] at hnext
      have hnot : ¬ channel.LocalAt kind i := fun hlocal => by
        have := hlocal.1
        omega
      rw [hnext]
      exact ⟨rfl, rfl, fun _ => rfl, fun hlocal => absurd hlocal hnot⟩
    · rw [if_neg hborder] at hnext
      have hinside : 0 < i ∧ i + 1 < channel.samples.length := by omega
      by_cases hextreme : isLocalExtreme kind (channel.valueAt (i - 1)) (channel.valueAt i)
          (channel.valueAt (i + 1)) = true
      · unfold valueAt at hextreme
        rw [if_pos hextreme] at hnext
        rw [hnext]
        exact ⟨rfl, rfl, fun hnot => absurd ⟨hinside, hextreme⟩ hnot, fun _ => rfl⟩
      · have hnot : ¬ channel.LocalAt kind i := fun hlocal => hextreme hlocal.2
        unfold valueAt at hextreme
        rw [if_neg hextreme] at hnext
        rw [hnext]
        exact ⟨rfl, rfl, fun _ => rfl, fun hlocal => absurd hlocal hnot⟩
  · have hfar : maxTimeDistance < |(channel.samples.getD i default).time - centerTime| :=
      not_le.mp hnear
    rw [if_pos hfar] at hnext
    exact ⟨fun _ => hnext, fun h => absurd h hnear⟩

theorem acceptCandidate_cases (best : BestExtreme ℚ) (i : ℕ) :
    (∃ distance, channel.acceptCandidate channelIndex kind centerTime best i =
        some (channel.makeCursorReadout channelIndex i, distance)) ∨
      best.isSome = true ∧ channel.acceptCandidate channelIndex kind centerTime best i = best := by
  unfold acceptCandidate
  cases best with
  | none => exact Or.inl ⟨_, rfl⟩
  | some found =>
    dsimp only
    split
    · exact Or.inl ⟨_, rfl⟩
    · exact Or.inr ⟨rfl, rfl⟩

/-- Between flat samples there is no edge. -/
theorem strongestEdge_flat
    (hflat : ∀ i j, i < channel.samples.length → j < channel.samples.length →
      channel.valueAt i - channel.valueAt j ≤ kMathEpsilon) :
    channel.strongestEdge channelIndex centerTime maxTimeDistance = none := by
  unfold strongestEdge
  split
  · rfl
  rw [WindowScan.foldl_skip]
  intro state j hj
  rw [List.mem_range'_1] at hj
  have hrise := hflat j (j - 1) (by omega) (by omega)
  have hfall := hflat (j - 1) j (by omega) (by omega)
  unfold valueAt at hrise hfall
  unfold considerEdge
  dsimp only
  split
  · rfl
  split
  · rfl
  rw [if_pos]
  rw [fabs_rat, sub_rat, le_rat, decide_eq_true_eq]
  exact abs_le.mpr ⟨by linarith, hrise⟩

/-- What is kept of the samples that were looked at. -/
structure Seen (channel : WaveDisplayChannel ℚ) (channelIndex : ℕ) (kind : WaveExtremeKind)
    (centerTime maxTimeDistance : ℚ) (seen : List ℕ) (state : ExtremeSearch ℚ) : Prop where
  localFound : state.bestLocalExtreme.isSome = true ↔
    ∃ i ∈ seen, channel.Near centerTime maxTimeDistance i ∧ channel.LocalAt kind i
  localReadout : ∀ found ∈ state.bestLocalExtreme,
    ∃ i ∈ seen, found.1 = channel.makeCursorReadout channelIndex i
  windowFound : state.windowRange.isSome = true → state.bestWindowExtreme.isSome = true
  windowReadout : ∀ found ∈ state.bestWindowExtreme,
    ∃ i ∈ seen, found.1 = channel.makeCursorReadout channelIndex i
  inRange : ∀ i ∈ seen, channel.Near centerTime maxTimeDistance i →
    ∃ range ∈ state.windowRange, range.1 ≤ channel.valueAt i ∧ channel.valueAt i ≤ range.2
  rangeSeen : ∀ range ∈ state.windowRange,
    (∃ i ∈ seen, channel.valueAt i = range.1) ∧ ∃ i ∈ seen, channel.valueAt i = range.2

theorem widen_spec (range : Option (ℚ × ℚ)) (value : ℚ) :
    ((widen range value).1 ≤ value ∧ value ≤ (widen range value).2) ∧
      (∀ values ∈ range, (widen range value).1 ≤ values.1 ∧ values.2 ≤ (widen range value).2) ∧
      ((widen range value).1 = value ∨ ∃ values ∈ range, (widen range value).1 = values.1) ∧
      ((widen range value).2 = value ∨ ∃ values ∈ range, (widen range value).2 = values.2) := by
  cases range with
  | none =>
    exact ⟨⟨le_refl _, le_refl _⟩, fun values h => absurd h (Option.not_mem_none values),
      Or.inl rfl, Or.inl rfl⟩
  | some values =>
    obtain ⟨least, greatest⟩ := values
    unfold widen
    simp only [lt_rat, decide_eq_true_eq, Option.mem_def, Option.some.injEq, forall_eq',
      exists_eq_left']
    refine ⟨⟨?_, ?_⟩, ⟨?_, ?_⟩, ?_, ?_⟩
    · split
      · exact le_refl _
      · exact not_lt.mp ‹_›
    · split
      · exact le_refl _
      · exact not_lt.mp ‹_›
    · split
      · exact le_of_lt ‹_›
      · exact le_refl _
    · split
      · exact le_of_lt ‹_›
      · exact le_refl _
    · split
      · exact Or.inl rfl
      · exact Or.inr rfl
    · split
      · exact Or.inl rfl
      · exact Or.inr rfl

theorem acceptCandidate_seen {best : BestExtreme ℚ} {seen : List ℕ}
    (hbest : ∀ found ∈ best, ∃ k ∈ seen, found.1 = channel.makeCursorReadout channelIndex k) :
    (channel.acceptCandidate channelIndex kind centerTime best i).isSome = true ∧
      ∀ found ∈ channel.acceptCandidate channelIndex kind centerTime best i,
        ∃ k ∈ seen ++ [i], found.1 = channel.makeCursorReadout channelIndex k := by
  rcases @acceptCandidate_cases channel channelIndex centerTime kind best i with
    ⟨distance, hnew⟩ | ⟨hsome, hsame⟩
  · rw [hnew]
    refine ⟨rfl, fun found hfound => ⟨i, by simp, ?_⟩⟩
    rw [← Option.mem_some_iff.mp hfound]
  · rw [hsame]
    refine ⟨hsome, fun found hfound => ?_⟩
    obtain ⟨k, hk, hreadout⟩ := hbest found hfound
    exact ⟨k, List.mem_append_left _ hk, hreadout⟩

theorem Seen.step {seen : List ℕ}
    (h : Seen channel channelIndex kind centerTime maxTimeDistance seen state) (i : ℕ) :
    Seen channel channelIndex kind centerTime maxTimeDistance (seen ++ [i])
      (channel.considerExtreme channelIndex kind centerTime maxTimeDistance state i) := by
  have hcases := @considerExtreme_cases channel channelIndex centerTime maxTimeDistance kind state i
  dsimp only at hcases
  obtain ⟨hfar, hnear⟩ := hcases
  generalize channel.considerExtreme channelIndex kind centerTime maxTimeDistance state i = next
    at hfar hnear ⊢
  by_cases hin : channel.Near centerTime maxTimeDistance i
  · obtain ⟨hrange, hwindow, hsame, hlocal⟩ := hnear hin
    obtain ⟨hwindowSome, hwindowSeen⟩ :=
      @acceptCandidate_seen channel channelIndex centerTime kind i _ _ h.windowReadout
    obtain ⟨hvalue, hwider, hleast, hgreatest⟩ :=
      widen_spec state.windowRange (channel.valueAt i)
    refine ⟨?_, ?_, fun _ => by rw [hwindow]; exact hwindowSome,
      by rw [hwindow]; exact hwindowSeen, ?_, ?_⟩
    · by_cases hat : channel.LocalAt kind i
      · rw [hlocal hat]
        have hsome := (@acceptCandidate_seen channel channelIndex centerTime kind i _ _
          h.localReadout).1
        exact ⟨fun _ => ⟨i, by simp, hin, hat⟩, fun _ => hsome⟩
      · rw [hsame hat, h.localFound]
        constructor
        · rintro ⟨k, hk, hfound⟩
          exact ⟨k, List.mem_append_left _ hk, hfound⟩
        · rintro ⟨k, hk, hfound⟩
          rcases List.mem_append.mp hk with hold | hnew
          · exact ⟨k, hold, hfound⟩
          · rw [List.mem_singleton.mp hnew] at hfound
            exact absurd hfound.2 hat
    · by_cases hat : channel.LocalAt kind i
      · rw [hlocal hat]
        exact (@acceptCandidate_seen channel channelIndex centerTime kind i _ _ h.localReadout).2
      · rw [hsame hat]
        intro found hfound
        obtain ⟨k, hk, hreadout⟩ := h.localReadout found hfound
        exact ⟨k, List.mem_append_left _ hk, hreadout⟩
    · intro k hk hnearK
      refine ⟨_, hrange, ?_⟩
      rcases List.mem_append.mp hk with hold | hnew
      · obtain ⟨range, hmem, hle, hge⟩ := h.inRange k hold hnearK
        obtain ⟨hleft, hright⟩ := hwider range hmem
        exact ⟨hleft.trans hle, hge.trans hright⟩
      · rw [List.mem_singleton.mp hnew]
        exact hvalue
    · intro range hmem
      rw [hrange] at hmem
      obtain rfl := Option.mem_some_iff.mp hmem
      refine ⟨?_, ?_⟩
      · rcases hleast with heq | ⟨values, hvalues, heq⟩
        · exact ⟨i, by simp, heq.symm⟩
        · obtain ⟨⟨k, hk, hvalueK⟩, -⟩ := h.rangeSeen values hvalues
          exact ⟨k, List.mem_append_left _ hk, hvalueK.trans heq.symm⟩
      · rcases hgreatest with heq | ⟨values, hvalues, heq⟩
        · exact ⟨i, by simp, heq.symm⟩
        · obtain ⟨-, k, hk, hvalueK⟩ := h.rangeSeen values hvalues
          exact ⟨k, List.mem_append_left _ hk, hvalueK.trans heq.symm⟩
  · rw [hfar hin]
    refine ⟨?_, ?_, h.windowFound, ?_, ?_, ?_⟩
    · rw [h.localFound]
      constructor
      · rintro ⟨k, hk, hfound⟩
        exact ⟨k, List.mem_append_left _ hk, hfound⟩
      · rintro ⟨k, hk, hfound⟩
        rcases List.mem_append.mp hk with hold | hnew
        · exact ⟨k, hold, hfound⟩
        · rw [List.mem_singleton.mp hnew] at hfound
          exact absurd hfound.1 hin
    · intro found hfound
      obtain ⟨k, hk, hreadout⟩ := h.localReadout found hfound
      exact ⟨k, List.mem_append_left _ hk, hreadout⟩
    · intro found hfound
      obtain ⟨k, hk, hreadout⟩ := h.windowReadout found hfound
      exact ⟨k, List.mem_append_left _ hk, hreadout⟩
    · intro k hk hnearK
      rcases List.mem_append.mp hk with hold | hnew
      · exact h.inRange k hold hnearK
      · rw [List.mem_singleton.mp hnew] at hnearK
        exact absurd hnearK hin
    · intro range hmem
      obtain ⟨⟨k, hk, hleast⟩, l, hl, hgreatest⟩ := h.rangeSeen range hmem
      exact ⟨⟨k, List.mem_append_left _ hk, hleast⟩, l, List.mem_append_left _ hl, hgreatest⟩

theorem Seen.foldl {seen : List ℕ} (indices : List ℕ)
    (h : Seen channel channelIndex kind centerTime maxTimeDistance seen state) :
    Seen channel channelIndex kind centerTime maxTimeDistance (seen ++ indices)
      (indices.foldl (channel.considerExtreme channelIndex kind centerTime maxTimeDistance)
        state) := by
  induction indices generalizing seen state with
  | nil => simpa using h
  | cons i indices ih =>
    rw [List.foldl_cons, List.append_cons]
    exact ih (h.step i)

/-- What the search answers: a sample of the channel; nothing exactly when no sample near the
time is a strict extreme and those near it are flat. -/
theorem localExtreme_spec (hpos : 0 < maxTimeDistance) :
    let result := channel.localExtreme channelIndex centerTime maxTimeDistance kind
    (∀ r ∈ result, ∃ i < channel.samples.length,
        r = channel.makeCursorReadout channelIndex i) ∧
      (result = none →
        (∀ i < channel.samples.length, channel.Near centerTime maxTimeDistance i →
          ¬ channel.LocalAt kind i) ∧
        ∀ i j, i < channel.samples.length → j < channel.samples.length →
          channel.Near centerTime maxTimeDistance i → channel.Near centerTime maxTimeDistance j →
          channel.valueAt i - channel.valueAt j ≤ kMathEpsilon) ∧
      ((∀ i < channel.samples.length, ¬ channel.LocalAt kind i) →
        (∀ i j, i < channel.samples.length → j < channel.samples.length →
          channel.valueAt i - channel.valueAt j ≤ kMathEpsilon) → result = none) := by
  intro result
  have hresult : result = _ := localExtreme_eq hpos
  have hstart : Seen channel channelIndex kind centerTime maxTimeDistance []
      { bestLocalExtreme := none, bestWindowExtreme := none, windowRange := none } :=
    ⟨by simp, by simp, by simp, by simp, by simp, by simp⟩
  have hseen := hstart.foldl (List.range' 0 channel.samples.length)
  rw [List.nil_append] at hseen
  rw [hresult]
  generalize (List.range' 0 channel.samples.length).foldl _ _ = state at hseen
  have hmem : ∀ i, i ∈ List.range' 0 channel.samples.length ↔ i < channel.samples.length := by
    intro i
    rw [List.mem_range'_1]
    omega
  obtain ⟨bestLocal, bestWindow, range⟩ := state
  unfold ExtremeSearch.result
  dsimp only
  cases bestLocal with
  | some found =>
    refine ⟨fun r hr => ?_, fun h => (by cases h), fun hnone _ => ?_⟩
    · obtain ⟨i, hi, hreadout⟩ := hseen.localReadout found rfl
      exact ⟨i, (hmem i).mp hi, (Option.mem_some_iff.mp hr).symm.trans hreadout⟩
    · obtain ⟨i, hi, -, hlocal⟩ := hseen.localFound.mp rfl
      exact absurd hlocal (hnone i ((hmem i).mp hi))
  | none =>
    have hno : ∀ i < channel.samples.length, channel.Near centerTime maxTimeDistance i →
        ¬ channel.LocalAt kind i := by
      intro i hi hnear hlocal
      have := hseen.localFound.mpr ⟨i, (hmem i).mpr hi, hnear, hlocal⟩
      cases this
    cases range with
    | none =>
      refine ⟨fun r hr => absurd hr (Option.not_mem_none r), fun _ => ⟨hno, ?_⟩, fun _ _ => rfl⟩
      intro i j hi _ hnear _
      obtain ⟨range, hrange, -⟩ := hseen.inRange i ((hmem i).mpr hi) hnear
      exact absurd hrange (Option.not_mem_none range)
    | some values =>
      obtain ⟨least, greatest⟩ := values
      dsimp only
      simp only [lt_rat, sub_rat, decide_eq_true_eq]
      by_cases hwide : kMathEpsilon < greatest - least
      · rw [if_pos hwide]
        refine ⟨fun r hr => ?_, fun hnone => ?_, fun _ hflat => ?_⟩
        · obtain ⟨found, hfound, rfl⟩ := Option.mem_map.mp hr
          obtain ⟨i, hi, hreadout⟩ := hseen.windowReadout found hfound
          exact ⟨i, (hmem i).mp hi, hreadout⟩
        · have hsome := hseen.windowFound rfl
          rw [Option.map_eq_none_iff] at hnone
          dsimp only at hsome
          rw [hnone] at hsome
          cases hsome
        · obtain ⟨⟨i, hi, hleast⟩, j, hj, hgreatest⟩ := hseen.rangeSeen _ rfl
          have := hflat j i ((hmem j).mp hj) ((hmem i).mp hi)
          rw [hleast, hgreatest] at this
          exact absurd hwide (not_lt.mpr this)
      · rw [if_neg hwide]
        refine ⟨fun r hr => absurd hr (Option.not_mem_none r), fun _ => ⟨hno, ?_⟩, fun _ _ => rfl⟩
        intro i j hi hj hnearI hnearJ
        obtain ⟨range, hrange, -, hle⟩ := hseen.inRange i ((hmem i).mpr hi) hnearI
        obtain ⟨range', hrange', hge, -⟩ := hseen.inRange j ((hmem j).mpr hj) hnearJ
        obtain rfl := Option.mem_some_iff.mp hrange
        obtain rfl := Option.mem_some_iff.mp hrange'
        have := not_lt.mp hwide
        dsimp only at hle hge
        linarith

end WaveDisplayChannel

end ProtoScope.Plot
