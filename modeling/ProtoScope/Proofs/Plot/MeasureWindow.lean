/-
What the errors of a measurement are taken against.

Both ways of measuring look for the first reference sample that is not before a time: one by binary
search in what was cut out of the window, the other by a position that only moves forward.  A sample
just before the time is never looked at, and only the second way sees the sample after the window.
So the errors are as they should be where the first sample after each time lies in the window and is
a nearest one, or where some time has no sample near it at all.
-/
import ProtoScope.Plot.MeasureWindow
import ProtoScope.Proofs.Plot.Measurement
import ProtoScope.Proofs.Plot.DisplayQueries
import ProtoScope.Proofs.Plot.WaveBuckets

namespace ProtoScope.Plot

open ProtoScope.Library
open WaveScalar WaveArith

/-- A billionth of the unit of time. -/
theorem kReferenceTolerance_eq : (kReferenceTolerance : ℚ) = 1 / 10 ^ 9 := by
  have hquotient : (kReferenceTolerance : ℚ) = ((1 : ℕ) : ℚ) / ((10 ^ 9 : ℕ) : ℚ) := rfl
  rw [hquotient]
  norm_num

/-! ### Lists of matches -/

section Matches

variable {value? : ℚ → Option ℚ} {times : List ℚ}

/-- Where every time has a match the values are those of the matches. -/
theorem matchedReference_all (h : ∀ t ∈ times, (value? t).isSome) :
    List.Forall₂ (fun t v => value? t = some v) times (matchedReference value? times) := by
  have hsome : ∃ values, times.mapM value? = some values ∧
      List.Forall₂ (fun t v => value? t = some v) times values := by
    induction times with
    | nil => exact ⟨[], rfl, .nil⟩
    | cons t rest ih =>
      obtain ⟨v, hv⟩ := Option.isSome_iff_exists.mp (h t List.mem_cons_self)
      obtain ⟨values, hvalues, hrest⟩ := ih fun u hu => h u (List.mem_cons_of_mem _ hu)
      exact ⟨v :: values, by simp [hv, hvalues], .cons hv hrest⟩
  obtain ⟨values, hvalues, hmatched⟩ := hsome
  unfold matchedReference
  rw [hvalues]
  exact hmatched

/-- One time without a match gives up all. -/
theorem matchedReference_none {t : ℚ} (ht : t ∈ times) (hnone : value? t = none) :
    matchedReference value? times = [] := by
  have hmapM : times.mapM value? = none := by
    induction times with
    | nil => cases ht
    | cons u rest ih =>
      rcases List.mem_cons.mp ht with rfl | ht
      · simp [hnone]
      · cases hu : value? u <;> simp [hu, ih ht]
  unfold matchedReference
  rw [hmapM]
  rfl

theorem matchedReference_congr {other? : ℚ → Option ℚ} (h : ∀ t ∈ times, value? t = other? t) :
    matchedReference value? times = matchedReference other? times := by
  have hmapM : times.mapM value? = times.mapM other? := by
    induction times with
    | nil => rfl
    | cons t rest ih =>
      rw [List.mapM_cons, List.mapM_cons, h t List.mem_cons_self,
        ih fun u hu => h u (List.mem_cons_of_mem _ hu)]
  unfold matchedReference
  rw [hmapM]

end Matches

namespace WaveQueryView

variable {m r : WaveQueryView ℚ} {lo hi t : ℚ}

/-! ### What the errors should be taken against -/

/-- The positions of the samples in a closed window. -/
def windowPositions (m : WaveQueryView ℚ) (lo hi : ℚ) : List ℕ :=
  (List.range m.size).filter fun i => lo ≤ m.time i ∧ m.time i ≤ hi

/-- A reference sample close enough to a time. -/
def Near (r : WaveQueryView ℚ) (t : ℚ) (j : ℕ) : Prop :=
  j < r.size ∧ |r.time j - t| ≤ 1 / 10 ^ 9

/-- A reference sample that is close enough and no other is closer. -/
def NearestTo (r : WaveQueryView ℚ) (t : ℚ) (j : ℕ) : Prop :=
  r.Near t j ∧ ∀ k < r.size, |r.time j - t| ≤ |r.time k - t|

/-- The first reference sample that is not before a time. -/
def FirstAfter (r : WaveQueryView ℚ) (t : ℚ) (j : ℕ) : Prop :=
  j < r.size ∧ t ≤ r.time j ∧ ∀ k < j, r.time k < t

theorem windowPositions_eq (hm : m.TimesIncrease) :
    m.windowPositions lo hi =
      List.range' (m.bound lo false) (m.bound hi true - m.bound lo false) := by
  have hsize := @bound_le_size _ _ m hi true
  have hleft : (m.windowPositions lo hi).Pairwise (· < ·) :=
    List.pairwise_lt_range.sublist List.filter_sublist
  have hright : (List.range' (m.bound lo false)
      (m.bound hi true - m.bound lo false)).Pairwise (· < ·) := List.pairwise_lt_range'
  have hmem : ∀ i, i ∈ m.windowPositions lo hi ↔
      i ∈ List.range' (m.bound lo false) (m.bound hi true - m.bound lo false) := by
    intro i
    unfold windowPositions
    rw [List.mem_filter, List.mem_range, List.mem_range'_1, decide_eq_true_eq]
    by_cases hin : i < m.size
    · rw [← hm.ascend.upto_iff hin, ← not_lt, ← hm.ascend.before_iff hin]
      omega
    · omega
  refine List.Perm.eq_of_pairwise' hleft hright ?_
  exact (List.perm_ext_iff_of_nodup (hleft.imp fun h => h.ne) (hright.imp fun h => h.ne)).mpr hmem

theorem mem_windowPositions {i : ℕ} :
    i ∈ m.windowPositions lo hi ↔ i < m.size ∧ lo ≤ m.time i ∧ m.time i ≤ hi := by
  unfold windowPositions
  rw [List.mem_filter, List.mem_range, decide_eq_true_eq]

/-- The binary search finds the first sample that is not before a time. -/
theorem firstAfter_iff (hr : r.TimesIncrease) {j : ℕ} :
    r.FirstAfter t j ↔ j < r.size ∧ j = r.bound t false := by
  obtain ⟨hbelow, habove, -, -⟩ := hr.bounds t
  have hsize := @bound_le_size _ _ r t false
  constructor
  · rintro ⟨hj, hle, hbefore⟩
    refine ⟨hj, Nat.le_antisymm ?_ ?_⟩
    · by_contra hlt
      have hcut := hbefore _ (Nat.lt_of_not_le hlt)
      exact absurd hcut (not_lt.mpr (habove _ (Nat.le_refl _) (by omega)))
    · by_contra hlt
      exact absurd (hbelow j (Nat.lt_of_not_le hlt)) (not_lt.mpr hle)
  · rintro ⟨hj, rfl⟩
    exact ⟨hj, habove _ (Nat.le_refl _) hj, hbelow⟩

/-! ### The reference value of a time -/

/-- What the loop over the whole reference takes for a time. -/
def forwardValue (r : WaveQueryView ℚ) (t : ℚ) : Option ℚ :=
  let j := r.bound t false
  if j < r.size ∧ |r.time j - t| ≤ 1 / 10 ^ 9 then some (r.actual j) else none

/-- What the search in the window takes: it sees no sample after the window. -/
def windowValue (r : WaveQueryView ℚ) (hi t : ℚ) : Option ℚ :=
  if r.time (r.bound t false) ≤ hi then r.forwardValue t else none

theorem advance_eq (hr : r.TimesIncrease) {i : ℕ} (hi : i ≤ r.bound t false) :
    advance r.size (fun j => lt (r.time j) t) i = r.bound t false := by
  obtain ⟨hbelow, habove, -, -⟩ := hr.bounds t
  have hsize := @bound_le_size _ _ r t false
  unfold advance
  by_cases hend : r.bound t false < r.size
  · have hfind : (List.range' i (r.size - i)).find? (fun j => !lt (r.time j) t) =
        some (r.bound t false) := by
      refine List.find?_range'_eq_some.mpr ⟨?_, ?_, fun j _ hj => ?_⟩
      · simpa using habove _ (Nat.le_refl _) hend
      · rw [List.mem_range'_1]
        omega
      · simpa using hbelow j hj
    rw [hfind, Option.getD_some]
  · have hfind : (List.range' i (r.size - i)).find? (fun j => !lt (r.time j) t) = none := by
      refine List.find?_range'_eq_none.mpr fun j _ hj => ?_
      simpa using hbelow j (by omega)
    rw [hfind, Option.getD_none]
    omega

/-- **A position that only moves forward finds what the search finds**, as long as the times it is
asked for do not go back. -/
theorem scanReference_eq (hr : r.TimesIncrease) {times : List ℚ}
    (htimes : times.Pairwise (· ≤ ·)) {i : ℕ} (hi : ∀ t ∈ times, i ≤ r.bound t false) :
    scanReference r.size r.time r.actual i times = times.mapM r.forwardValue := by
  induction times generalizing i with
  | nil => rfl
  | cons t rest ih =>
    obtain ⟨hfirst, hrest⟩ := List.pairwise_cons.mp htimes
    have hnext := ih hrest fun u hu => hr.ascend.bound_le_bound (hfirst u hu)
    have hsize := @bound_le_size _ _ r t false
    have hvalue : r.forwardValue t =
        if r.bound t false < r.size ∧ |r.time (r.bound t false) - t| ≤ 1 / 10 ^ 9 then
          some (r.actual (r.bound t false))
        else none := rfl
    rw [List.mapM_cons, hvalue]
    unfold scanReference
    dsimp only
    rw [advance_eq hr (hi t List.mem_cons_self), hnext, sub_rat, fabs_rat, lt_rat,
      kReferenceTolerance_eq]
    by_cases hclose : r.bound t false < r.size ∧ |r.time (r.bound t false) - t| ≤ 1 / 10 ^ 9
    · have hskip : ¬ (decide (r.bound t false = r.size) ||
          decide (1 / 10 ^ 9 < |r.time (r.bound t false) - t|)) = true := by
        rw [Bool.or_eq_true, decide_eq_true_eq, decide_eq_true_eq, not_or]
        exact ⟨hclose.1.ne, not_lt.mpr hclose.2⟩
      rw [if_pos hclose, if_neg hskip]
      cases rest.mapM r.forwardValue <;> rfl
    · have hskip : (decide (r.bound t false = r.size) ||
          decide (1 / 10 ^ 9 < |r.time (r.bound t false) - t|)) = true := by
        rw [Bool.or_eq_true, decide_eq_true_eq, decide_eq_true_eq]
        by_contra hnot
        push Not at hnot
        exact hclose ⟨by omega, hnot.2⟩
      rw [if_neg hclose, if_pos hskip]
      rfl

section Window

variable {begin fin : ℕ}

theorem lowerBound_window (hr : r.TimesIncrease) (hfin : fin ≤ r.size)
    (hbegin : begin ≤ r.bound t false) (hend : r.bound t false ≤ fin) :
    (r.sampleWindow begin fin).lowerBound t = r.bound t false - begin := by
  obtain ⟨hbelow, habove, -, -⟩ := hr.bounds t
  obtain ⟨hle, hearly, hlate⟩ := hr.find_window begin hfin t
  change (r.sampleWindow begin fin).lowerBound t ≤ fin - begin at hle
  refine Nat.le_antisymm ?_ ?_
  · by_contra hlt
    have hbefore := hearly _ (Nat.lt_of_not_le hlt)
    rw [Nat.add_sub_cancel' hbegin] at hbefore
    exact absurd hbefore (not_lt.mpr (habove _ (Nat.le_refl _) (by omega)))
  · by_contra hlt
    have hafter := hlate _ (Nat.le_refl _) (by
      change begin + (r.sampleWindow begin fin).lowerBound t < fin
      omega)
    exact absurd (hbelow _ (by
      change begin + (r.sampleWindow begin fin).lowerBound t < r.bound t false
      omega)) (not_lt.mpr hafter)

theorem upperBound_window (hr : r.TimesIncrease) :
    (r.sampleWindow begin (r.bound hi true)).upperBound hi = r.bound hi true - begin := by
  obtain ⟨-, -, hupto, -⟩ := hr.bounds hi
  have hall : ∀ sample ∈ (r.sampleWindow begin (r.bound hi true)).samples,
      (!lt hi sample.time) = true := by
    intro sample hsample
    obtain ⟨i, hin, rfl⟩ := List.mem_map.mp hsample
    rw [List.mem_range'_1] at hin
    have hle := hupto i (by omega)
    change (!lt hi (r.time i)) = true
    simpa using hle
  unfold WaveDisplayChannel.upperBound
  rw [PartitionPoint.find_eq_length hall, sampleWindow_length]

theorem sampleTime_window {j : ℕ} (hj : begin + j < fin) :
    (r.sampleWindow begin fin).sampleTime j = r.time (begin + j) := by
  unfold WaveDisplayChannel.sampleTime
  rw [sampleWindow_getD hj]
  rfl

theorem actualAt_window {j : ℕ} (hj : begin + j < fin) :
    (r.sampleWindow begin fin).actualAt j = r.actual (begin + j) := sampleWindow_actual hj _

/-- **The search in the window takes the first sample that is not before a time**, unless that comes
after the window. -/
theorem referenceValue_window (hr : r.TimesIncrease) (hle : lo ≤ t) (hle' : t ≤ hi) :
    (r.sampleWindow (r.bound lo false) (r.bound hi true)).referenceValue t =
      r.windowValue hi t := by
  have hbegin := hr.ascend.bound_le_bound hle
  have hend := hr.ascend.bound_le_fin hle'
  have hfin := @bound_le_size _ _ r hi true
  unfold WaveDisplayChannel.referenceValue windowValue forwardValue
  dsimp only
  rw [lowerBound_window hr hfin hbegin hend, sampleWindow_length, sub_rat, fabs_rat, lt_rat,
    kReferenceTolerance_eq]
  by_cases hin : r.bound t false < r.bound hi true
  · have hsize : r.bound t false < r.size := by omega
    have hupto := (hr.ascend.upto_iff hsize).mp hin
    have hj : r.bound lo false + (r.bound t false - r.bound lo false) < r.bound hi true := by omega
    have hlast : ¬ r.bound t false - r.bound lo false = r.bound hi true - r.bound lo false := by
      omega
    rw [sampleTime_window hj, actualAt_window hj, Nat.add_sub_cancel' hbegin, if_pos hupto,
      decide_eq_false hlast, Bool.false_or]
    by_cases hclose : |r.time (r.bound t false) - t| ≤ 1 / 10 ^ 9
    · rw [decide_eq_false (not_lt.mpr hclose), if_neg Bool.false_ne_true,
        if_pos ⟨hsize, hclose⟩]
    · have hnone : ¬ (r.bound t false < r.size ∧
          |r.time (r.bound t false) - t| ≤ 1 / 10 ^ 9) := fun h => hclose h.2
      rw [decide_eq_true (not_le.mp hclose), if_pos rfl, if_neg hnone]
  · have hlast : r.bound t false - r.bound lo false = r.bound hi true - r.bound lo false := by
      omega
    rw [decide_eq_true hlast, Bool.true_or, if_pos rfl]
    by_cases hsize : r.bound t false < r.size
    · rw [if_neg (mt (hr.ascend.upto_iff hsize).mpr hin)]
    · have hnone : ¬ (r.bound t false < r.size ∧
          |r.time (r.bound t false) - t| ≤ 1 / 10 ^ 9) := fun h => hsize h.1
      rw [if_neg hnone, ite_self]

end Window

end WaveQueryView

/-! ### What the two ways collect -/

section Inputs

open WaveQueryView

variable {channels : List (WaveDisplayChannel ℚ)} {channelIndex referenceIndex : ℕ}
  {measured reference : WaveDisplayChannel ℚ} {measuredSource referenceSource : SnapshotChannel ℚ}
  {beginTime endTime : ℚ}

/-- A channel of the data with a source. -/
def Sourced (channels : List (WaveDisplayChannel ℚ)) (index : ℕ) (channel : WaveDisplayChannel ℚ)
    (source : SnapshotChannel ℚ) : Prop :=
  channels[index]? = some channel ∧ channel.source = some source

theorem map_shift {β : Type} {f g : ℕ → β} {begin count : ℕ}
    (h : ∀ j < count, f j = g (begin + j)) :
    (List.range' 0 count).map f = (List.range' begin count).map g := by
  have hshift := @List.map_add_range' begin 0 count 1
  rw [Nat.add_zero] at hshift
  rw [← hshift, List.map_map]
  refine List.map_congr_left fun j hj => ?_
  rw [List.mem_range'_1] at hj
  exact h j (by omega)

/-- A channel materialises a window of a view. -/
structure ShowsWindow (channel : WaveDisplayChannel ℚ) (view : WaveQueryView ℚ) (lo hi : ℚ) :
    Prop where
  lower : channel.lowerBound lo = 0
  upper : channel.upperBound hi = view.bound hi true - view.bound lo false
  time : ∀ j < view.bound hi true - view.bound lo false,
    channel.sampleTime j = view.time (view.bound lo false + j)
  actual : ∀ j < view.bound hi true - view.bound lo false,
    channel.actualAt j = view.actual (view.bound lo false + j)
  reference : ∀ t, lo ≤ t → t ≤ hi → channel.referenceValue t = view.windowValue hi t

/-- What is cut out of a source is a window of its samples. -/
theorem extract_shows {channel : WaveDisplayChannel ℚ} {source : SnapshotChannel ℚ} {lo hi : ℚ}
    (hsource : channel.source = some source) (htimes : (channel.query source).TimesIncrease)
    (hle : lo ≤ hi) :
    ShowsWindow (channel.extractDisplayWindow lo hi false) (channel.query source) lo hi := by
  generalize hview : channel.query source = view at htimes
  obtain ⟨indices, hextract⟩ : ∃ indices, channel.extractDisplayWindow lo hi false =
      { view.sampleWindow (view.bound lo false) (view.bound hi true) with
        sourceIndices := indices } := by
    unfold WaveDisplayChannel.extractDisplayWindow
    rw [hsource]
    dsimp only
    rw [hview, range_eq, min_eq_left hle, max_eq_right hle]
    exact ⟨_, rfl⟩
  have hspan := htimes.ascend.bound_le_fin hle
  have hsize := @bound_le_size _ _ view hi true
  rw [hextract]
  refine ⟨?_, ?_, ?_, ?_, ?_⟩
  · exact (lowerBound_window htimes hsize (Nat.le_refl _) hspan).trans (Nat.sub_self _)
  · exact upperBound_window htimes
  · exact fun j hj => sampleTime_window (by omega)
  · exact fun j hj => actualAt_window (by omega)
  · exact fun t hlo hhi => referenceValue_window htimes hlo hhi

theorem exactChannels_get {index : ℕ} {channel : WaveDisplayChannel ℚ} {lo hi : ℚ}
    (hchannel : channels[index]? = some channel)
    (hused : index = channelIndex ∨ some referenceIndex = some index) :
    (exactChannels channels channelIndex lo hi (some referenceIndex))[index]? =
      some (channel.extractDisplayWindow lo hi false) := by
  have hlt : index < channels.length := (List.getElem?_eq_some_iff.mp hchannel).1
  unfold exactChannels
  rw [List.getElem?_map, List.getElem?_range hlt, Option.map_some, if_pos hused,
    List.getD_eq_getElem?_getD, hchannel, Option.getD_some]

/-- What is measured in two materialised windows. -/
theorem windowInput_eq {m r : WaveQueryView ℚ} (hm : m.TimesIncrease)
    (hchannel : channels[channelIndex]? = some measured)
    (hother : channels[referenceIndex]? = some reference)
    (hmeasured : ShowsWindow measured m (min beginTime endTime) (max beginTime endTime))
    (hreference : ShowsWindow reference r (min beginTime endTime) (max beginTime endTime)) :
    let positions := m.windowPositions (min beginTime endTime) (max beginTime endTime)
    let times := positions.map m.time
    windowInput channels channelIndex beginTime endTime (some referenceIndex) none =
      if positions = [] then none
      else some
        ⟨channelIndex, times, positions.map m.actual,
          matchedReference (r.windowValue (max beginTime endTime)) times⟩ := by
  intro positions times
  have hpositions : positions = List.range' (m.bound (min beginTime endTime) false)
      (m.bound (max beginTime endTime) true - m.bound (min beginTime endTime) false) :=
    windowPositions_eq hm
  unfold windowInput
  rw [ordered_eq, List.getD_eq_getElem?_getD, hchannel, Option.getD_some, Option.bind_some, hother]
  dsimp only
  rw [hmeasured.lower, hmeasured.upper, Nat.sub_zero]
  by_cases hempty : positions = []
  · rw [if_pos hempty]
    rw [hpositions, List.range'_eq_nil_iff] at hempty
    exact if_pos (by omega)
  · rw [if_neg hempty]
    rw [hpositions, List.range'_eq_nil_iff] at hempty
    have htimes : (List.range' 0 (m.bound (max beginTime endTime) true -
        m.bound (min beginTime endTime) false)).map measured.sampleTime = times := by
      rw [map_shift hmeasured.time, ← hpositions]
    have hvalues : (List.range' 0 (m.bound (max beginTime endTime) true -
        m.bound (min beginTime endTime) false)).map measured.actualAt =
          positions.map m.actual := by
      rw [map_shift hmeasured.actual, ← hpositions]
    have hmatched : matchedReference reference.referenceValue times =
        matchedReference (r.windowValue (max beginTime endTime)) times := by
      refine matchedReference_congr fun t ht => ?_
      obtain ⟨i, hi, rfl⟩ := List.mem_map.mp ht
      obtain ⟨-, hlow, hhigh⟩ := mem_windowPositions.mp hi
      exact hreference.reference _ hlow hhigh
    rw [if_neg (by omega), htimes, hvalues, hmatched]

/-- What is measured at once. -/
theorem displayWindowInput_eq (hmeasured : Sourced channels channelIndex measured measuredSource)
    (hreference : Sourced channels referenceIndex reference referenceSource)
    (hm : (measured.query measuredSource).TimesIncrease)
    (hr : (reference.query referenceSource).TimesIncrease) :
    let positions := (measured.query measuredSource).windowPositions (min beginTime endTime)
      (max beginTime endTime)
    let times := positions.map (measured.query measuredSource).time
    displayWindowInput channels channelIndex beginTime endTime (some referenceIndex) none =
      if positions = [] then none
      else some
        ⟨channelIndex, times, positions.map (measured.query measuredSource).actual,
          matchedReference
            ((reference.query referenceSource).windowValue (max beginTime endTime)) times⟩ := by
  obtain ⟨hchannel, hsource⟩ := hmeasured
  obtain ⟨hother, hotherSource⟩ := hreference
  have hmin : (if lt endTime beginTime then endTime else beginTime) = min beginTime endTime := by
    rw [min_comm, min_def_lt]
    simp
  have hmax : (if lt beginTime endTime then endTime else beginTime) = max beginTime endTime := by
    rw [max_def_lt]
    simp
  unfold displayWindowInput
  rw [hchannel]
  dsimp only
  rw [hmin, hmax, hsource, Option.isSome_some, if_pos rfl]
  exact windowInput_eq hm (exactChannels_get hchannel (.inl rfl))
    (exactChannels_get hother (.inr rfl)) (extract_shows hsource hm min_le_max)
    (extract_shows hotherSource hr min_le_max)

/-- What a request collects. -/
theorem requestInput_eq (hmeasured : Sourced channels channelIndex measured measuredSource)
    (hreference : Sourced channels referenceIndex reference referenceSource)
    (hm : (measured.query measuredSource).TimesIncrease)
    (hr : (reference.query referenceSource).TimesIncrease) :
    let positions := (measured.query measuredSource).windowPositions (min beginTime endTime)
      (max beginTime endTime)
    let times := positions.map (measured.query measuredSource).time
    requestInput channels channelIndex beginTime endTime none (some referenceIndex) none =
      some
        ⟨channelIndex, times, positions.map (measured.query measuredSource).actual,
          matchedReference (reference.query referenceSource).forwardValue times⟩ := by
  intro positions times
  obtain ⟨hchannel, hsource⟩ := hmeasured
  obtain ⟨hother, hotherSource⟩ := hreference
  have hle : min beginTime endTime ≤ max beginTime endTime := min_le_max
  have hpositions : positions = List.range' ((measured.query measuredSource).bound
      (min beginTime endTime) false) ((measured.query measuredSource).bound
        (max beginTime endTime) true - (measured.query measuredSource).bound
        (min beginTime endTime) false) := windowPositions_eq hm
  have hcollected : measured.collectSamples (min beginTime endTime) (max beginTime endTime) =
      (times, positions.map (measured.query measuredSource).actual) := by
    unfold WaveDisplayChannel.collectSamples
    rw [hsource, if_pos (show le _ _ = true from decide_eq_true hle)]
    dsimp only
    rw [range_eq, min_eq_left hle, max_eq_right hle, ← hpositions]
  have hincrease : times.Pairwise (· ≤ ·) := by
    have hsorted : positions.Pairwise (· < ·) := List.pairwise_lt_range.sublist List.filter_sublist
    refine List.pairwise_map.mpr (hsorted.imp_of_mem fun _ hj hlt => ?_)
    exact (hm _ _ hlt (mem_windowPositions.mp hj).1).le
  have hscan : reference.collectReference (min beginTime endTime) (max beginTime endTime) times =
      matchedReference (reference.query referenceSource).forwardValue times := by
    unfold WaveDisplayChannel.collectReference matchedReference
    rw [hotherSource]
    dsimp only
    rw [scanReference_eq hr hincrease]
    intro t ht
    obtain ⟨i, hi, rfl⟩ := List.mem_map.mp ht
    obtain ⟨-, hlow, -⟩ := mem_windowPositions.mp hi
    refine le_trans ?_ (hr.ascend.bound_le_bound hlow)
    unfold range
    rw [ordered_eq, min_eq_left hle]
    dsimp only
    split <;> omega
  unfold requestInput requestWindow
  rw [hchannel]
  dsimp only
  rw [Option.bind_some, hother, isFinite_rat, isFinite_rat, Bool.and_self, if_pos rfl, ordered_eq]
  dsimp only
  rw [hcollected, hscan]

end Inputs

/-! ### The errors of a readout -/

section Errors

/-- The readout has the statistics of the errors. -/
def ErrorsPresent (readout : MeasurementReadout ℚ) : Prop :=
  (readout.absoluteError.isSome ∧ readout.meanError.isSome ∧ readout.mse.isSome) ∧
    readout.rmse.isSome ∧ readout.mae.isSome ∧ readout.maxAbsError.isSome ∧ readout.bias.isSome

/-- The readout has none of the statistics of the errors. -/
def ErrorsAbsent (readout : MeasurementReadout ℚ) : Prop :=
  (readout.absoluteError = none ∧ readout.relativeErrorPercent = none ∧ readout.meanError = none ∧
      readout.mse = none) ∧
    readout.rmse = none ∧ readout.mae = none ∧ readout.maxAbsError = none ∧ readout.bias = none

theorem ErrorsAbsent.not_present {readout : MeasurementReadout ℚ} (h : ErrorsAbsent readout) :
    ¬ ErrorsPresent readout := by
  rintro ⟨⟨habsolute, -⟩, -⟩
  rw [h.1.1] at habsolute
  cases habsolute

theorem emptyReadout_absent : ErrorsAbsent emptyReadout :=
  ⟨⟨rfl, rfl, rfl, rfl⟩, rfl, rfl, rfl, rfl⟩

variable {sqrt : ℚ → ℚ} {input : WaveMeasurementInput ℚ}

/-- **The errors are there exactly where there is a reference value for every value.** -/
theorem readout_errors (hvalues : input.values ≠ [])
    (htimes : input.times.length = input.values.length) :
    (input.reference.length = input.values.length → ErrorsPresent (input.readout sqrt)) ∧
      (input.reference.length ≠ input.values.length → ErrorsAbsent (input.readout sqrt)) := by
  have hmeasured : ∀ referenceValues, makeMeasurementReadout sqrt input.channel input.times
      input.values referenceValues =
        (let readout := measureTiming input.times input.values
          (measureSpread sqrt input.channel input.times input.values)
        match referenceValues with
        | some reference =>
          if reference.length = input.values.length then
            measureErrors sqrt input.values reference readout
          else readout
        | none => readout) := by
    intro referenceValues
    have hsome : ¬ (input.values.isEmpty ||
        decide (input.times.length < input.values.length)) = true := by
      simp [hvalues, htimes]
    unfold makeMeasurementReadout
    rw [if_neg hsome]
    cases referenceValues <;> rfl
  unfold WaveMeasurementInput.readout
  rw [hmeasured]
  constructor
  · intro hlength
    rw [if_pos hlength]
    dsimp only
    rw [if_pos hlength]
    exact ⟨⟨rfl, rfl, rfl⟩, rfl, rfl, rfl, rfl⟩
  · intro hlength
    rw [if_neg hlength]
    dsimp only
    unfold measureTiming
    split
    · exact ⟨⟨rfl, rfl, rfl, rfl⟩, rfl, rfl, rfl, rfl⟩
    · exact ⟨⟨rfl, rfl, rfl, rfl⟩, rfl, rfl, rfl, rfl⟩

end Errors

/-! ### The statistics against a reference channel -/

section Statistics

open WaveQueryView

variable {m r : WaveQueryView ℚ} {lo hi : ℚ} {input : Option (WaveMeasurementInput ℚ)}
  {readout : MeasurementReadout ℚ} {requested : Option (MeasurementReadout ℚ)}

/-- Every sample of the window has a reference sample near it. -/
def AllNear (m r : WaveQueryView ℚ) (lo hi : ℚ) : Prop :=
  ∀ i ∈ m.windowPositions lo hi, ∃ j, r.Near (m.time i) j

/-- What the statistics against a reference should be, for the vectors a window is measured from,
its readout, and the readout a request delivers. -/
structure ReferenceStatistics (m r : WaveQueryView ℚ) (channelIndex : ℕ) (lo hi : ℚ)
    (input : Option (WaveMeasurementInput ℚ)) (readout : MeasurementReadout ℚ)
    (requested : Option (MeasurementReadout ℚ)) : Prop where
  present : AllNear m r lo hi → ErrorsPresent readout
  absent : ¬ AllNear m r lo hi → ErrorsAbsent readout
  nearest : ErrorsPresent readout → ∃ references,
    input = some ⟨channelIndex, (m.windowPositions lo hi).map m.time,
      (m.windowPositions lo hi).map m.actual, references⟩ ∧
    List.Forall₂ (fun i v => ∃ j, r.NearestTo (m.time i) j ∧ r.actual j = v)
      (m.windowPositions lo hi) references
  agreed : requested = some readout

/-- The first reference sample that is not before a sample of the window is in the window and near,
and has the value of a nearest one. -/
def ForwardNearest (m r : WaveQueryView ℚ) (hi : ℚ) (i : ℕ) : Prop :=
  ∃ j, r.FirstAfter (m.time i) j ∧ r.time j ≤ hi ∧ r.Near (m.time i) j ∧
    ∃ k, r.NearestTo (m.time i) k ∧ r.actual k = r.actual j

theorem forwardValue_eq_some (hr : r.TimesIncrease) {t v : ℚ} :
    r.forwardValue t = some v ↔ ∃ j, r.FirstAfter t j ∧ r.Near t j ∧ r.actual j = v := by
  unfold forwardValue Near
  dsimp only
  constructor
  · intro h
    by_cases hclose : r.bound t false < r.size ∧ |r.time (r.bound t false) - t| ≤ 1 / 10 ^ 9
    · rw [if_pos hclose] at h
      exact ⟨_, (firstAfter_iff hr).mpr ⟨hclose.1, rfl⟩, hclose, Option.some.inj h⟩
    · rw [if_neg hclose] at h
      cases h
  · rintro ⟨j, hfirst, hclose, rfl⟩
    obtain ⟨-, rfl⟩ := (firstAfter_iff hr).mp hfirst
    exact if_pos hclose

theorem windowValue_eq_some (hr : r.TimesIncrease) {t v : ℚ} :
    r.windowValue hi t = some v ↔
      ∃ j, r.FirstAfter t j ∧ r.time j ≤ hi ∧ r.Near t j ∧ r.actual j = v := by
  unfold windowValue
  constructor
  · intro h
    by_cases hin : r.time (r.bound t false) ≤ hi
    · rw [if_pos hin, forwardValue_eq_some hr] at h
      obtain ⟨j, hfirst, hnear, hv⟩ := h
      refine ⟨j, hfirst, ?_, hnear, hv⟩
      rwa [((firstAfter_iff hr).mp hfirst).2]
    · rw [if_neg hin] at h
      cases h
  · rintro ⟨j, hfirst, hin, hnear, hv⟩
    have hposition := ((firstAfter_iff hr).mp hfirst).2
    rw [if_pos (hposition ▸ hin), forwardValue_eq_some hr]
    exact ⟨j, hfirst, hnear, hv⟩

section Pairs

variable {β γ : Type} {R S : β → γ → Prop} {xs : List β} {ys : List γ}

theorem forall₂_both (hR : List.Forall₂ R xs ys) (hS : List.Forall₂ S xs ys) :
    ∀ x ∈ xs, ∃ y, R x y ∧ S x y := by
  induction hR with
  | nil => exact fun x hx => absurd hx List.not_mem_nil
  | cons hfirst _ ih =>
    obtain _ | ⟨hsecond, hrest⟩ := hS
    intro x hx
    rcases List.mem_cons.mp hx with rfl | hx
    · exact ⟨_, hfirst, hsecond⟩
    · exact ih hrest x hx

theorem forall₂_imp_mem (h : ∀ x ∈ xs, ∀ y, R x y → S x y) (hR : List.Forall₂ R xs ys) :
    List.Forall₂ S xs ys := by
  induction hR with
  | nil => exact .nil
  | cons hfirst _ ih =>
    exact .cons (h _ List.mem_cons_self _ hfirst)
      (ih fun x hx => h x (List.mem_cons_of_mem _ hx))

end Pairs

/-- The reference values of a window, one for each of its samples, if each has one. -/
theorem matched_positions {value? : ℚ → Option ℚ}
    (h : ∀ i ∈ m.windowPositions lo hi, (value? (m.time i)).isSome) :
    List.Forall₂ (fun i v => value? (m.time i) = some v) (m.windowPositions lo hi)
      (matchedReference value? ((m.windowPositions lo hi).map m.time)) := by
  have hall : ∀ t ∈ (m.windowPositions lo hi).map m.time, (value? t).isSome := by
    intro t ht
    obtain ⟨i, hin, rfl⟩ := List.mem_map.mp ht
    exact h i hin
  exact List.forall₂_map_left_iff.mp (matchedReference_all hall)

theorem matched_nil {value? : ℚ → Option ℚ} {i : ℕ} (hin : i ∈ m.windowPositions lo hi)
    (hnone : value? (m.time i) = none) :
    matchedReference value? ((m.windowPositions lo hi).map m.time) = [] :=
  matchedReference_none (List.mem_map_of_mem hin) hnone

/-- The vectors of a window with reference values taken by `value?`. -/
def inputWith (m : WaveQueryView ℚ) (channelIndex : ℕ) (lo hi : ℚ) (value? : ℚ → Option ℚ) :
    WaveMeasurementInput ℚ :=
  ⟨channelIndex, (m.windowPositions lo hi).map m.time, (m.windowPositions lo hi).map m.actual,
    matchedReference value? ((m.windowPositions lo hi).map m.time)⟩

variable {sqrt : ℚ → ℚ} {channelIndex : ℕ}

/-- **The errors of a window that shows a sample are there exactly where each has a value.** -/
theorem inputWith_errors {value? : ℚ → Option ℚ} (hshown : m.windowPositions lo hi ≠ []) :
    ((∀ i ∈ m.windowPositions lo hi, (value? (m.time i)).isSome) →
        ErrorsPresent ((inputWith m channelIndex lo hi value?).readout sqrt)) ∧
      ((∃ i ∈ m.windowPositions lo hi, value? (m.time i) = none) →
        ErrorsAbsent ((inputWith m channelIndex lo hi value?).readout sqrt)) := by
  have herrors := @readout_errors sqrt (inputWith m channelIndex lo hi value?)
    (by simpa [inputWith] using hshown) (by simp [inputWith])
  constructor
  · intro hall
    apply herrors.1
    have hlength := (matched_positions hall).length_eq
    simp [inputWith, ← hlength]
  · rintro ⟨i, hin, hnone⟩
    apply herrors.2
    have hpos := List.length_pos_iff.mpr hshown
    simp only [inputWith, matched_nil hin hnone, List.length_nil, List.length_map]
    omega

/-- **When the statistics are as they should be**, for what the two ways collect. -/
theorem statistics_iff (sqrt : ℚ → ℚ) (hr : r.TimesIncrease)
    (hinput : input = if m.windowPositions lo hi = [] then none
      else some (inputWith m channelIndex lo hi (r.windowValue hi)))
    (hreadout : readout = (input.map (WaveMeasurementInput.readout sqrt)).getD emptyReadout)
    (hrequested : requested =
      some ((inputWith m channelIndex lo hi r.forwardValue).readout sqrt)) :
    ReferenceStatistics m r channelIndex lo hi input readout requested ↔
      m.windowPositions lo hi ≠ [] ∧
        ((∀ i ∈ m.windowPositions lo hi, ForwardNearest m r hi i) ∨
          ∃ i ∈ m.windowPositions lo hi, ∀ j, ¬ r.Near (m.time i) j) := by
  by_cases hshown : m.windowPositions lo hi = []
  · -- a window without a sample has no readout, although nothing in it lacks a match
    rw [if_pos hshown] at hinput
    subst hinput
    rw [Option.map_none, Option.getD_none] at hreadout
    constructor
    · intro h
      have hall : AllNear m r lo hi := by
        intro i hin
        rw [hshown] at hin
        cases hin
      have hpresent := h.present hall
      rw [hreadout] at hpresent
      exact absurd hpresent emptyReadout_absent.not_present
    · intro h
      exact absurd hshown h.1
  · rw [if_neg hshown] at hinput
    subst hinput
    rw [Option.map_some, Option.getD_some] at hreadout
    subst hreadout hrequested
    have herrors := @inputWith_errors m lo hi sqrt channelIndex (r.windowValue hi) hshown
    have hnear : ∀ {i v}, r.windowValue hi (m.time i) = some v → ∃ j, r.Near (m.time i) j := by
      intro i v h
      obtain ⟨j, -, -, hnear, -⟩ := (windowValue_eq_some hr).mp h
      exact ⟨j, hnear⟩
    by_cases hall : ∀ i ∈ m.windowPositions lo hi, (r.windowValue hi (m.time i)).isSome
    · have hpresent := herrors.1 hall
      have hmatched := matched_positions hall
      have hallNear : AllNear m r lo hi := by
        intro i hin
        obtain ⟨v, hv⟩ := Option.isSome_iff_exists.mp (hall i hin)
        exact hnear hv
      constructor
      · intro h
        obtain ⟨references, heq, hnearest⟩ := h.nearest hpresent
        obtain rfl : matchedReference (r.windowValue hi) ((m.windowPositions lo hi).map m.time) =
            references := congrArg WaveMeasurementInput.reference (Option.some.inj heq)
        refine ⟨hshown, .inl fun i hin => ?_⟩
        obtain ⟨v, hv, k, hk, hkv⟩ := forall₂_both hmatched hnearest i hin
        obtain ⟨j, hfirst, hinside, hclose, hjv⟩ := (windowValue_eq_some hr).mp hv
        exact ⟨j, hfirst, hinside, hclose, k, hk, hkv.trans hjv.symm⟩
      · rintro ⟨-, hforward | ⟨i, hin, hnone⟩⟩
        · refine ⟨fun _ => hpresent, fun hnot => absurd hallNear hnot, fun _ => ?_, ?_⟩
          · refine ⟨_, rfl, forall₂_imp_mem (fun i hin v hv => ?_) hmatched⟩
            obtain ⟨j, hfirst, -, -, k, hk, hkj⟩ := hforward i hin
            obtain ⟨j', hfirst', -, -, rfl⟩ := (windowValue_eq_some hr).mp hv
            have hsame : j = j' := ((firstAfter_iff hr).mp hfirst).2.trans
              ((firstAfter_iff hr).mp hfirst').2.symm
            exact ⟨k, hk, hsame ▸ hkj⟩
          · have hequal : inputWith m channelIndex lo hi r.forwardValue =
                inputWith m channelIndex lo hi (r.windowValue hi) := by
              unfold inputWith
              rw [matchedReference_congr fun t ht => ?_]
              obtain ⟨i, hin, rfl⟩ := List.mem_map.mp ht
              obtain ⟨v, hv⟩ := Option.isSome_iff_exists.mp (hall i hin)
              obtain ⟨j, hfirst, -, hclose, hjv⟩ := (windowValue_eq_some hr).mp hv
              rw [hv]
              exact (forwardValue_eq_some hr).mpr ⟨j, hfirst, hclose, hjv⟩
            rw [hequal]
        · obtain ⟨j, hj⟩ := hallNear i hin
          exact absurd hj (hnone j)
    · push Not at hall
      obtain ⟨missed, hmissed, hnone⟩ := hall
      replace hnone := Option.not_isSome_iff_eq_none.mp hnone
      have habsent := herrors.2 ⟨missed, hmissed, hnone⟩
      constructor
      · intro h
        refine ⟨hshown, .inr ?_⟩
        by_contra hnot
        push Not at hnot
        exact habsent.not_present (h.present hnot)
      · rintro ⟨-, hforward | ⟨i, hin, hfar⟩⟩
        · obtain ⟨j, hfirst, hinside, hclose, -⟩ := hforward missed hmissed
          have hsome := (windowValue_eq_some hr).mpr ⟨j, hfirst, hinside, hclose, rfl⟩
          rw [hnone] at hsome
          cases hsome
        · have hnotNear : ¬ AllNear m r lo hi := by
            intro hallNear
            obtain ⟨j, hj⟩ := hallNear i hin
            exact hfar j hj
          refine ⟨fun h => absurd h hnotNear, fun _ => habsent,
            fun h => absurd h habsent.not_present, ?_⟩
          have hforward : r.forwardValue (m.time i) = none := by
            rw [Option.eq_none_iff_forall_ne_some]
            intro v hv
            obtain ⟨j, -, hclose, -⟩ := (forwardValue_eq_some hr).mp hv
            exact hfar j hclose
          unfold inputWith
          rw [matched_nil hin hforward, matched_nil hmissed hnone]

end Statistics

open WaveQueryView

/-- **Statistics against a reference channel.**  For two channels with sources and strictly
increasing times, the errors are there exactly where every sample of the window has a reference
sample near it, taken against the nearest ones, and alike in both ways of measuring, if and only if
the window shows a sample and either the first reference sample after each of them lies in the
window, is near and has the value of a nearest one, or one of them has no reference sample near
it. -/
theorem reference_statistics_iff (sqrt : ℚ → ℚ) (channels : List (WaveDisplayChannel ℚ))
    (channelIndex referenceIndex : ℕ) (measured reference : WaveDisplayChannel ℚ)
    (measuredSource referenceSource : SnapshotChannel ℚ) (beginTime endTime : ℚ)
    (hmeasured : Sourced channels channelIndex measured measuredSource)
    (hreference : Sourced channels referenceIndex reference referenceSource)
    (hm : (measured.query measuredSource).TimesIncrease)
    (hr : (reference.query referenceSource).TimesIncrease) :
    let m := measured.query measuredSource
    let r := reference.query referenceSource
    let lo := min beginTime endTime
    let hi := max beginTime endTime
    ReferenceStatistics m r channelIndex lo hi
        (displayWindowInput channels channelIndex beginTime endTime (some referenceIndex) none)
        (measureDisplayWindow sqrt channels channelIndex beginTime endTime (some referenceIndex)
          none)
        (requestWaveMeasurement sqrt channels channelIndex beginTime endTime none
          (some referenceIndex) none) ↔
      m.windowPositions lo hi ≠ [] ∧
        ((∀ i ∈ m.windowPositions lo hi, ForwardNearest m r hi i) ∨
          ∃ i ∈ m.windowPositions lo hi, ∀ j, ¬ r.Near (m.time i) j) := by
  intro m r lo hi
  refine statistics_iff sqrt hr (displayWindowInput_eq hmeasured hreference hm hr) ?_ ?_
  · unfold measureDisplayWindow
    cases displayWindowInput channels channelIndex beginTime endTime (some referenceIndex) none <;>
      rfl
  · unfold requestWaveMeasurement
    rw [requestInput_eq hmeasured hreference hm hr]
    rfl

/-! A channel of one sample. -/

def oneSample (time value : ℚ) : SnapshotChannel ℚ where
  samples := [⟨time, value⟩]
  sampleIndexOffset := 0
  summaryIndex := none
  ratio := 1
  scale := 1
  offset := 0
  visibleBegin := 0
  visibleEnd := 1
  bitDisplayEnabled := false
  begin_le_end := Nat.zero_le 1
  end_le_total := Nat.le_refl 1

def oneChannel (time value : ℚ) : WaveDisplayChannel ℚ where
  source := some (oneSample time value)
  axis := .scriptTime

def oneView (time value : ℚ) : WaveQueryView ℚ :=
  (oneChannel time value).query (oneSample time value)

theorem oneView_increase (time value : ℚ) : (oneView time value).TimesIncrease := by
  intro i j hij hj
  change j < 1 at hj
  omega

theorem oneView_position {time value : ℚ} {i : ℕ} (hi : i < (oneView time value).size) : i = 0 :=
  Nat.lt_one_iff.mp hi

theorem oneView_shown {time value lo hi : ℚ} (hlo : lo ≤ time) (hhi : time ≤ hi) :
    0 ∈ (oneView time value).windowPositions lo hi :=
  mem_windowPositions.mpr ⟨Nat.one_pos, hlo, hhi⟩

/-- One sample measured against one at the same time. -/
theorem reference_statistics_iff_same :
    ReferenceStatistics (oneView 1 5) (oneView 1 3) 0 (min 0 2) (max 0 2)
      (displayWindowInput [oneChannel 1 5, oneChannel 1 3] 0 0 2 (some 1) none)
      (measureDisplayWindow id [oneChannel 1 5, oneChannel 1 3] 0 0 2 (some 1) none)
      (requestWaveMeasurement id [oneChannel 1 5, oneChannel 1 3] 0 0 2 none (some 1) none) := by
  refine (reference_statistics_iff id [oneChannel 1 5, oneChannel 1 3] 0 1 _ _ _ _ 0 2 ⟨rfl, rfl⟩
    ⟨rfl, rfl⟩ (oneView_increase 1 5) (oneView_increase 1 3)).mpr ⟨?_, .inl fun i hi => ?_⟩
  · exact List.ne_nil_of_mem (@oneView_shown 1 5 (min 0 2) (max 0 2) (by simp) (by simp))
  · obtain rfl := oneView_position (mem_windowPositions.mp hi).1
    have hnear : (oneView 1 3).Near ((oneView 1 5).time 0) 0 :=
      ⟨Nat.one_pos, by
        change |(1 : ℚ) - 1| ≤ 1 / 10 ^ 9
        norm_num⟩
    refine ⟨0, ⟨Nat.one_pos, le_refl (1 : ℚ), fun k hk => absurd hk (Nat.not_lt_zero k)⟩, ?_, hnear,
      0, ⟨hnear, fun k hk => ?_⟩, rfl⟩
    · change (1 : ℚ) ≤ max 0 2
      norm_num
    · rw [oneView_position hk]

/-- The reference has a sample half a billionth before the only one of the window: it is near, and
there are no errors. -/
theorem earlier_match_missed :
    ¬ ReferenceStatistics (oneView 1 5) (oneView (1 - 1 / (2 * 10 ^ 9)) 3) 0 (min 0 2) (max 0 2)
      (displayWindowInput [oneChannel 1 5, oneChannel (1 - 1 / (2 * 10 ^ 9)) 3] 0 0 2 (some 1) none)
      (measureDisplayWindow id [oneChannel 1 5, oneChannel (1 - 1 / (2 * 10 ^ 9)) 3] 0 0 2 (some 1)
        none)
      (requestWaveMeasurement id [oneChannel 1 5, oneChannel (1 - 1 / (2 * 10 ^ 9)) 3] 0 0 2 none
        (some 1) none) := by
  intro h
  have hshown := @oneView_shown 1 5 (min 0 2) (max 0 2) (by simp) (by simp)
  have hinput : displayWindowInput [oneChannel 1 5, oneChannel (1 - 1 / (2 * 10 ^ 9)) 3] 0 0 2
      (some 1) none = some (inputWith (oneView 1 5) 0 (min 0 2) (max 0 2)
        ((oneView (1 - 1 / (2 * 10 ^ 9)) 3).windowValue (max 0 2))) :=
    (displayWindowInput_eq ⟨rfl, rfl⟩ ⟨rfl, rfl⟩ (oneView_increase 1 5)
      (oneView_increase (1 - 1 / (2 * 10 ^ 9)) 3)).trans (if_neg (List.ne_nil_of_mem hshown))
  have hall : AllNear (oneView 1 5) (oneView (1 - 1 / (2 * 10 ^ 9)) 3) (min 0 2) (max 0 2) := by
    intro i hi
    obtain rfl := oneView_position (mem_windowPositions.mp hi).1
    refine ⟨0, Nat.one_pos, ?_⟩
    change |(1 - 1 / (2 * 10 ^ 9) : ℚ) - 1| ≤ 1 / 10 ^ 9
    rw [abs_le]
    norm_num
  have hmissed : (oneView (1 - 1 / (2 * 10 ^ 9)) 3).windowValue (max 0 2)
      ((oneView 1 5).time 0) = none := by
    rw [Option.eq_none_iff_forall_ne_some]
    intro v hv
    obtain ⟨j, ⟨hj, hlate, -⟩, -⟩ :=
      (windowValue_eq_some (oneView_increase (1 - 1 / (2 * 10 ^ 9)) 3)).mp hv
    obtain rfl := oneView_position hj
    change (1 : ℚ) ≤ 1 - 1 / (2 * 10 ^ 9) at hlate
    norm_num at hlate
  have habsent := (@inputWith_errors (oneView 1 5) (min 0 2) (max 0 2) id 0 _
    (List.ne_nil_of_mem hshown)).2 ⟨0, hshown, hmissed⟩
  have hpresent := h.present hall
  unfold measureDisplayWindow at hpresent
  rw [hinput] at hpresent
  exact habsent.not_present hpresent

end ProtoScope.Plot
