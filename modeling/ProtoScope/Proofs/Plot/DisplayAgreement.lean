/-
The searches on display data with a source agree with those on materialised samples.

A search with a source cuts the samples it needs out of the whole history; the materialised
path scans what is visible.  Where what is cut out lies in the visible part the two agree.
Over the whole history that is always so, and a visible part that is neither empty nor whole
has queries on which they do not.
-/
import ProtoScope.Proofs.Plot.DisplayQueries

namespace ProtoScope.Plot

open ProtoScope.Library
open WaveScalar WaveArith
open WaveDisplayChannel (fromSource isLocalExtreme extractDisplayWindow)
open WaveDisplayChannel WaveQueryView WaveDisplayData

/-! ### Display data -/

section Build

variable {α : Type} [WaveArith α]

omit [WaveArith α] in
theorem displaySampleRange_eq (channel : SnapshotChannel α) :
    displaySampleRange channel = (channel.visibleBegin, channel.visibleEnd) := by
  have hbegin := channel.begin_le_end
  have hend := channel.end_le_total
  unfold displaySampleRange
  by_cases hempty : channel.samples.isEmpty = true
  · rw [List.isEmpty_iff.mp hempty, List.length_nil] at hend
    rw [if_pos hempty, Nat.le_zero.mp hend, Nat.le_zero.mp (hbegin.trans hend)]
  · rw [if_neg hempty]
    dsimp only
    rw [Nat.min_eq_left hend, Nat.min_eq_left (hbegin.trans hend), if_neg (Nat.not_lt.mpr hbegin)]

/-- Both kinds of data are on the same axis. -/
theorem resolveQueryTimeAxis_eq (snapshot : WaveSnapshot α) (sampleFrequencyHz : α) :
    resolveQueryTimeAxis snapshot sampleFrequencyHz =
      resolveDisplayTimeAxis snapshot sampleFrequencyHz := by
  have husable : ∀ channel : SnapshotChannel α,
      (!channel.samples.isEmpty &&
        scriptTimeUsable channel channel.visibleBegin channel.visibleEnd) =
        scriptTimeUsable channel (displaySampleRange channel).1 (displaySampleRange channel).2 := by
    intro channel
    rw [displaySampleRange_eq]
    unfold scriptTimeUsable
    cases channel.samples.isEmpty with
    | true => rfl
    | false => rfl
  unfold resolveQueryTimeAxis resolveDisplayTimeAxis hasUsableScriptTime
  rw [Bool.and_comm, funext husable]

/-- The view that the displayed data of a channel has on it. -/
def WaveSnapshot.view (snapshot : WaveSnapshot α) (sampleFrequencyHz : α)
    (channel : SnapshotChannel α) : WaveQueryView α where
  channel := channel.toChannelView
  axis := resolveDisplayTimeAxis snapshot sampleFrequencyHz
  frequency := sampleFrequencyHz
  formula := snapshot.displayFormula

theorem displaySample_eq (snapshot : WaveSnapshot α) (sampleFrequencyHz : α)
    (channel : SnapshotChannel α) (i : ℕ) :
    displaySample channel snapshot.displayFormula sampleFrequencyHz
        (resolveDisplayTimeAxis snapshot sampleFrequencyHz) i =
      (snapshot.view sampleFrequencyHz channel).sample i := by
  have htime : resolveDisplaySampleTime (channel.samples.getD i default) channel.sampleIndexOffset
        i sampleFrequencyHz (resolveDisplayTimeAxis snapshot sampleFrequencyHz) =
      (snapshot.view sampleFrequencyHz channel).time i := by
    unfold time WaveSnapshot.view
    cases haxis : resolveDisplayTimeAxis snapshot sampleFrequencyHz with
    | scriptTime => rfl
    | sampleIndex => rfl
    | sampleFrequency =>
      -- this axis is taken for a positive frequency only
      have hpositive : lt zero sampleFrequencyHz = true := by
        by_contra hnot
        unfold resolveDisplayTimeAxis at haxis
        rw [Bool.not_eq_true] at hnot
        rw [hnot, Bool.false_and, if_neg Bool.false_ne_true] at haxis
        split at haxis
        · cases haxis
        · cases haxis
      dsimp only
      rw [if_pos hpositive]
      rfl
  unfold displaySample
  rw [htime]
  rfl

end Build

namespace WaveSnapshot

variable {snapshot : WaveSnapshot ℚ} {sampleFrequencyHz : ℚ} {channel : SnapshotChannel ℚ}
  {channelIndex : ℕ}

/-- The materialised samples of a channel are those of its view in the visible part. -/
theorem plain_channel (hchannel : snapshot.channels[channelIndex]? = some channel) :
    (buildDisplayDataInto snapshot sampleFrequencyHz).channels[channelIndex]? =
      some ((snapshot.view sampleFrequencyHz channel).sampleWindow channel.visibleBegin
        channel.visibleEnd) := by
  unfold buildDisplayDataInto
  rw [List.getElem?_map, hchannel, Option.map_some, Option.some.injEq]
  unfold fillDisplayChannel
  rw [displaySampleRange_eq]
  dsimp only
  by_cases hempty : channel.visibleEnd ≤ channel.visibleBegin
  · have hzero : channel.visibleEnd - channel.visibleBegin = 0 := by omega
    rw [if_pos hempty]
    unfold sampleWindow
    rw [hzero]
    rfl
  · rw [if_neg hempty]
    unfold sampleWindow
    rw [funext (displaySample_eq snapshot sampleFrequencyHz channel)]
    rfl

/-- The data with sources keeps the channel and looks at it through the same view. -/
theorem source_channel (hchannel : snapshot.channels[channelIndex]? = some channel)
    (pointBudget : ℕ) (timeRange : Option (ℚ × ℚ)) (mode : WaveDownsampleMode) :
    ∃ displayed,
      (buildQueryDisplayDataInto snapshot sampleFrequencyHz pointBudget timeRange
        mode).channels[channelIndex]? = some displayed ∧ displayed.source = some channel ∧
        displayed.query channel = snapshot.view sampleFrequencyHz channel := by
  unfold buildQueryDisplayDataInto
  rw [resolveQueryTimeAxis_eq]
  refine ⟨fillQueryDisplayChannel channel snapshot.displayFormula sampleFrequencyHz
    (resolveDisplayTimeAxis snapshot sampleFrequencyHz) pointBudget timeRange mode, ?_, ?_, ?_⟩
  · dsimp only
    rw [List.getElem?_map, hchannel, Option.map_some]
  · unfold fillQueryDisplayChannel
    dsimp only
    split
    · rfl
    · rfl
  · unfold fillQueryDisplayChannel
    dsimp only
    split
    · rfl
    · rfl

end WaveSnapshot

/-! ### Agreement -/

/-- Two answers agree: one search finds something exactly when the other does, both at the same
measure, and what is found with the source is what its index says among the visible samples. -/
structure Agree (channel : SnapshotChannel ℚ) (denotes : CursorReadout ℚ → Prop)
    (measure : CursorReadout ℚ → ℚ) (sourced plain : Option (CursorReadout ℚ)) : Prop where
  found : sourced.isSome = plain.isSome
  same : ∀ r ∈ sourced, ∀ r' ∈ plain, measure r = measure r'
  visible : ∀ r ∈ sourced, r.sampleIndex < channel.visibleEnd - channel.visibleBegin
  denotes : ∀ r ∈ sourced, denotes r

/-- Two searches that find nothing agree. -/
theorem Agree.of_none {channel : SnapshotChannel ℚ} {denotes : CursorReadout ℚ → Prop}
    {measure : CursorReadout ℚ → ℚ} {sourced plain : Option (CursorReadout ℚ)}
    (hsourced : sourced = none) (hplain : plain = none) :
    Agree channel denotes measure sourced plain := by
  subst hsourced
  subst hplain
  exact ⟨rfl, fun r hr => absurd hr (Option.not_mem_none r),
    fun r hr => absurd hr (Option.not_mem_none r), fun r hr => absurd hr (Option.not_mem_none r)⟩

/-- The strength of the edge that ends at a sample. -/
def WaveDisplayChannel.edgeStrength (channel : WaveDisplayChannel ℚ) (index : ℕ) : ℚ :=
  |channel.valueAt index - channel.valueAt (index - 1)|

/-- The three searches agree at a time and a distance. -/
structure QueriesAgree (plain sourced : WaveDisplayData ℚ) (channelIndex : ℕ)
    (channel : SnapshotChannel ℚ) (time maxTimeDistance : ℚ) : Prop where
  nearest : ∀ displayed ∈ plain.channels[channelIndex]?,
    Agree channel
      (fun r => r = displayed.makeCursorReadout channelIndex r.sampleIndex)
      (fun r => |r.time - time|)
      (sourced.findNearestDisplayByTime channelIndex time maxTimeDistance false)
      (plain.findNearestDisplayByTime channelIndex time maxTimeDistance false)
  edge : ∀ displayed ∈ plain.channels[channelIndex]?,
    Agree channel
      (fun r => 1 ≤ r.sampleIndex ∧ r = displayed.edgeReadout channelIndex r.sampleIndex)
      (fun r => displayed.edgeStrength r.sampleIndex)
      (sourced.findStrongestEdgeNearTime channelIndex time maxTimeDistance)
      (plain.findStrongestEdgeNearTime channelIndex time maxTimeDistance)
  extreme : ∀ displayed ∈ plain.channels[channelIndex]?, ∀ kind,
    Agree channel
      (fun r => r = displayed.makeCursorReadout channelIndex r.sampleIndex)
      (fun r => r.displayValue)
      (sourced.findLocalExtremeNearTime channelIndex time maxTimeDistance kind)
      (plain.findLocalExtremeNearTime channelIndex time maxTimeDistance kind)

/-- The values of the whole history span no more than the tolerance, without a strict extreme. -/
def WaveQueryView.Flat (view : WaveQueryView ℚ) : Prop :=
  (∀ i j, i < view.size → j < view.size →
      (view.sample i).value - (view.sample j).value ≤ kMathEpsilon) ∧
    ∀ kind i, 0 < i → i + 1 < view.size →
      isLocalExtreme kind (view.sample (i - 1)).value (view.sample i).value
        (view.sample (i + 1)).value = false

theorem WaveQueryView.range_le_size (view : WaveQueryView ℚ) (minTime maxTime : ℚ)
    (guards : Bool) : (view.range minTime maxTime guards).2 ≤ view.size := by
  have hsize := @bound_le_size _ _ view (ordered minTime maxTime).2 true
  unfold range
  dsimp only
  split
  · rename_i h
    simp only [Bool.and_eq_true, decide_eq_true_eq] at h
    omega
  · exact hsize

/-- What is displayed of one channel in both ways. -/
structure Displayed (plain sourced : WaveDisplayData ℚ) (channelIndex : ℕ)
    (channel : SnapshotChannel ℚ) (view : WaveQueryView ℚ) : Prop where
  plain_eq : plain.channels[channelIndex]? =
    some (view.sampleWindow channel.visibleBegin channel.visibleEnd)
  sourced_eq : ∃ displayed, sourced.channels[channelIndex]? = some displayed ∧
    displayed.source = some channel ∧ displayed.query channel = view
  size : view.size = channel.samples.length
  times : view.TimesIncrease

namespace Displayed

variable {plain sourced : WaveDisplayData ℚ} {channelIndex : ℕ} {channel : SnapshotChannel ℚ}
  {view : WaveQueryView ℚ} {time maxTimeDistance : ℚ} {kind : WaveExtremeKind}

theorem end_le_size (h : Displayed plain sourced channelIndex channel view) :
    channel.visibleEnd ≤ view.size := by
  rw [h.size]
  exact channel.end_le_total

/-! What the six searches compute. -/

theorem plain_nearest (h : Displayed plain sourced channelIndex channel view) :
    plain.findNearestDisplayByTime channelIndex time maxTimeDistance false =
      (view.sampleWindow channel.visibleBegin channel.visibleEnd).nearestSample channelIndex time
        maxTimeDistance := by
  unfold findNearestDisplayByTime
  rw [h.plain_eq]
  rfl

theorem plain_edge (h : Displayed plain sourced channelIndex channel view) :
    plain.findStrongestEdgeNearTime channelIndex time maxTimeDistance =
      (view.sampleWindow channel.visibleBegin channel.visibleEnd).strongestEdge channelIndex time
        maxTimeDistance := by
  unfold findStrongestEdgeNearTime
  rw [h.plain_eq]
  rfl

theorem plain_extreme (h : Displayed plain sourced channelIndex channel view) :
    plain.findLocalExtremeNearTime channelIndex time maxTimeDistance kind =
      (view.sampleWindow channel.visibleBegin channel.visibleEnd).localExtreme channelIndex time
        maxTimeDistance kind := by
  unfold findLocalExtremeNearTime
  rw [h.plain_eq]
  rfl

theorem sourced_nearest (h : Displayed plain sourced channelIndex channel view)
    (hdistance : 0 ≤ maxTimeDistance) :
    let range := view.range time time true
    let first := max range.1 channel.visibleBegin
    let last := min range.2 channel.visibleEnd
    sourced.findNearestDisplayByTime channelIndex time maxTimeDistance false =
      ((List.range' first (last - first)).foldl
        (nearestOfSource view channel channelIndex time false)
        (none, maxTimeDistance)).1 := by
  obtain ⟨displayed, hdisplayed, hsource, hquery⟩ := h.sourced_eq
  unfold findNearestDisplayByTime
  rw [hdisplayed]
  dsimp only
  rw [hsource]
  dsimp only
  rw [hquery, if_pos]
  · rfl
  · rw [isFinite_rat, isFinite_rat, Bool.true_and, Bool.true_and, le_rat, zero_rat,
      decide_eq_true_eq]
    exact hdistance

/-- Without a distance the search with a source looks at the displayed points, and finds none. -/
theorem sourced_nearest_none (h : Displayed plain sourced channelIndex channel view)
    (hdistance : maxTimeDistance < 0) :
    sourced.findNearestDisplayByTime channelIndex time maxTimeDistance false = none := by
  obtain ⟨displayed, hdisplayed, hsource, -⟩ := h.sourced_eq
  unfold findNearestDisplayByTime
  rw [hdisplayed]
  dsimp only
  rw [hsource]
  dsimp only
  rw [if_neg]
  · unfold nearestSample
    rw [if_pos]
    simp [hdistance]
  · simp [hdistance]

/-- The samples that are cut out of the history. -/
def exactRange (view : WaveQueryView ℚ) (time maxTimeDistance : ℚ) : ℕ × ℕ :=
  view.range (time - maxTimeDistance) (time + maxTimeDistance) true

/-- A readout of the samples cut out, its index counted from the visible part on. -/
def fromHistory (first visibleBegin : ℕ) (readout : CursorReadout ℚ) : CursorReadout ℚ :=
  { readout with sampleIndex := sizeSub (first + readout.sampleIndex) visibleBegin }

theorem fromSource_eq {displayed : WaveDisplayChannel ℚ} (hsource : displayed.source = some channel)
    (hquery : displayed.query channel = view) {r : CursorReadout ℚ}
    (hr : r.sampleIndex < (exactRange view time maxTimeDistance).2 -
      (exactRange view time maxTimeDistance).1) :
    fromSource (displayed.extractDisplayWindow (time - maxTimeDistance) (time + maxTimeDistance)
        true) channel r =
      fromHistory (exactRange view time maxTimeDistance).1 channel.visibleBegin r := by
  unfold fromSource fromHistory
  have hindices : (displayed.extractDisplayWindow (time - maxTimeDistance)
        (time + maxTimeDistance) true).sourceIndices.getD r.sampleIndex 0 =
      (exactRange view time maxTimeDistance).1 + r.sampleIndex := by
    unfold extractDisplayWindow
    rw [hsource]
    dsimp only
    rw [hquery, List.getD_eq_getElem?_getD]
    unfold exactRange at hr ⊢
    rw [List.getElem?_range' hr, Nat.one_mul]
    rfl
  rw [hindices]

theorem sourced_edge (h : Displayed plain sourced channelIndex channel view) :
    let exact := exactRange view time maxTimeDistance
    sourced.findStrongestEdgeNearTime channelIndex time maxTimeDistance =
      ((view.sampleWindow exact.1 exact.2).strongestEdge channelIndex time maxTimeDistance).map
        (fromHistory exact.1 channel.visibleBegin) := by
  intro exact
  obtain ⟨displayed, hdisplayed, hsource, hquery⟩ := h.sourced_eq
  have hexact : (displayed.extractDisplayWindow (time - maxTimeDistance) (time + maxTimeDistance)
        true).strongestEdge channelIndex time maxTimeDistance =
      (view.sampleWindow exact.1 exact.2).strongestEdge channelIndex time maxTimeDistance := by
    unfold extractDisplayWindow
    rw [hsource]
    dsimp only
    rw [hquery]
    rfl
  unfold findStrongestEdgeNearTime
  rw [hdisplayed]
  dsimp only
  rw [hsource]
  dsimp only
  rw [sub_rat, add_rat, hexact]
  refine Option.map_congr fun r hr => fromSource_eq hsource hquery ?_
  obtain ⟨i, ⟨-, hi⟩, rfl⟩ := strongestEdge_readout hr
  rwa [sampleWindow_length] at hi

theorem sourced_extreme (h : Displayed plain sourced channelIndex channel view) :
    let exact := exactRange view time maxTimeDistance
    sourced.findLocalExtremeNearTime channelIndex time maxTimeDistance kind =
      ((view.sampleWindow exact.1 exact.2).localExtreme channelIndex time maxTimeDistance
        kind).map (fromHistory exact.1 channel.visibleBegin) := by
  intro exact
  obtain ⟨displayed, hdisplayed, hsource, hquery⟩ := h.sourced_eq
  have hexact : (displayed.extractDisplayWindow (time - maxTimeDistance) (time + maxTimeDistance)
        true).localExtreme channelIndex time maxTimeDistance kind =
      (view.sampleWindow exact.1 exact.2).localExtreme channelIndex time maxTimeDistance kind := by
    unfold extractDisplayWindow
    rw [hsource]
    dsimp only
    rw [hquery]
    rfl
  unfold findLocalExtremeNearTime
  rw [hdisplayed]
  dsimp only
  rw [hsource]
  dsimp only
  rw [sub_rat, add_rat, hexact]
  refine Option.map_congr fun r hr => fromSource_eq hsource hquery ?_
  rcases le_or_gt maxTimeDistance 0 with hle | hpos
  · rw [localExtreme_none hle] at hr
    exact absurd hr (Option.not_mem_none r)
  · obtain ⟨i, hi, rfl⟩ := (localExtreme_spec hpos).1 r hr
    rwa [sampleWindow_length] at hi

/-- In the visible part an index counted from its first sample is what the shift gives. -/
theorem fromHistory_eq {first visibleBegin : ℕ} (h : visibleBegin ≤ first) (r : CursorReadout ℚ) :
    fromHistory first visibleBegin r = r.shift (first - visibleBegin) := by
  unfold fromHistory CursorReadout.shift sizeSub
  rw [if_pos (by omega)]
  congr 1
  omega

/-! ### Queries within the visible part -/

/-- Two equal answers agree, where they denote a visible sample. -/
theorem agree_of_eq {denotes : CursorReadout ℚ → Prop} {measure : CursorReadout ℚ → ℚ}
    {sourced plain : Option (CursorReadout ℚ)} (heq : sourced = plain)
    (hdenotes : ∀ r ∈ plain, denotes r ∧
      r.sampleIndex < channel.visibleEnd - channel.visibleBegin) :
    Agree channel denotes measure sourced plain := by
  subst heq
  refine ⟨rfl, fun r hr r' hr' => ?_, fun r hr => (hdenotes r hr).2,
    fun r hr => (hdenotes r hr).1⟩
  obtain rfl := Option.mem_unique hr hr'
  rfl

theorem nearest_agree (h : Displayed plain sourced channelIndex channel view)
    (hbegin : channel.visibleBegin ≤ (exactRange view time maxTimeDistance).1)
    (hend : (exactRange view time maxTimeDistance).2 ≤ channel.visibleEnd) :
    Agree channel
      (fun r => r = (view.sampleWindow channel.visibleBegin
        channel.visibleEnd).makeCursorReadout channelIndex r.sampleIndex)
      (fun r => |r.time - time|)
      (sourced.findNearestDisplayByTime channelIndex time maxTimeDistance false)
      (plain.findNearestDisplayByTime channelIndex time maxTimeDistance false) := by
  have hplain : WaveQueryView.IsNearest view channelIndex channel.visibleBegin time
      maxTimeDistance {i | channel.visibleBegin ≤ i ∧ i < channel.visibleEnd} _ :=
    h.times.nearestSample h.end_le_size channelIndex time maxTimeDistance
  rw [h.plain_nearest]
  rcases lt_or_ge maxTimeDistance 0 with hnegative | hdistance
  · refine Agree.of_none (h.sourced_nearest_none hnegative) ?_
    cases hresult : (view.sampleWindow channel.visibleBegin channel.visibleEnd).nearestSample
        channelIndex time maxTimeDistance with
    | none => rfl
    | some r =>
      rw [hresult] at hplain
      cases hplain with
      | some hi hnear hleast => exact absurd (abs_nonneg _) (not_le.mpr (hnear.trans_lt hnegative))
  · rw [h.sourced_nearest hdistance]
    have hsourced := h.times.nearest_of_source h.end_le_size hdistance hbegin hend channelIndex
    obtain ⟨hfound, hsame⟩ := hsourced.agree hplain
    refine ⟨hfound, hsame, fun r hr => ?_, fun r hr => ?_⟩
    · dsimp only at hsourced hr
      rw [Option.mem_def.mp hr] at hsourced
      cases hsourced with
      | @some i hi hnear hleast =>
        obtain ⟨hle, hlt⟩ := hi
        show i - channel.visibleBegin < _
        omega
    · dsimp only at hsourced hr
      rw [Option.mem_def.mp hr] at hsourced
      cases hsourced with
      | @some i hi hnear hleast =>
        obtain ⟨hle, hlt⟩ := hi
        have hposition : channel.visibleBegin + (i - channel.visibleBegin) = i := by omega
        show view.readoutAt channelIndex channel.visibleBegin i = makeCursorReadout _
          channelIndex (i - channel.visibleBegin)
        rw [sampleWindow_readout (by omega), hposition]

theorem edge_agree (h : Displayed plain sourced channelIndex channel view)
    (hbegin : channel.visibleBegin ≤ (exactRange view time maxTimeDistance).1)
    (hend : (exactRange view time maxTimeDistance).2 ≤ channel.visibleEnd) :
    Agree channel
      (fun r => 1 ≤ r.sampleIndex ∧ r = (view.sampleWindow channel.visibleBegin
        channel.visibleEnd).edgeReadout channelIndex r.sampleIndex)
      (fun r => (view.sampleWindow channel.visibleBegin channel.visibleEnd).edgeStrength
        r.sampleIndex)
      (sourced.findStrongestEdgeNearTime channelIndex time maxTimeDistance)
      (plain.findStrongestEdgeNearTime channelIndex time maxTimeDistance) := by
  rw [h.plain_edge, h.sourced_edge]
  rcases le_or_gt maxTimeDistance 0 with hle | hpos
  · exact Agree.of_none (by rw [strongestEdge_none hle]; rfl)
      (strongestEdge_none hle)
  refine agree_of_eq ?_ fun r hr => ?_
  · rw [h.times.strongestEdge_window h.end_le_size (h.times.surrounds hpos.le) hbegin hend]
    exact Option.map_congr fun r _ => fromHistory_eq hbegin r
  · obtain ⟨i, ⟨hi, hlt⟩, rfl⟩ := strongestEdge_readout hr
    rw [sampleWindow_length] at hlt
    exact ⟨⟨hi, rfl⟩, hlt⟩

theorem extreme_agree (h : Displayed plain sourced channelIndex channel view)
    (hbegin : channel.visibleBegin ≤ (exactRange view time maxTimeDistance).1)
    (hend : (exactRange view time maxTimeDistance).2 ≤ channel.visibleEnd)
    (kind : WaveExtremeKind) :
    Agree channel
      (fun r => r = (view.sampleWindow channel.visibleBegin
        channel.visibleEnd).makeCursorReadout channelIndex r.sampleIndex)
      (fun r => r.displayValue)
      (sourced.findLocalExtremeNearTime channelIndex time maxTimeDistance kind)
      (plain.findLocalExtremeNearTime channelIndex time maxTimeDistance kind) := by
  rw [h.plain_extreme, h.sourced_extreme]
  rcases le_or_gt maxTimeDistance 0 with hle | hpos
  · exact Agree.of_none (by rw [localExtreme_none hle]; rfl)
      (localExtreme_none hle)
  refine agree_of_eq ?_ fun r hr => ?_
  · rw [localExtreme_window h.end_le_size (h.times.surrounds hpos.le) hbegin hend]
    exact Option.map_congr fun r _ => fromHistory_eq hbegin r
  · obtain ⟨i, hi, rfl⟩ := (localExtreme_spec hpos).1 r hr
    rw [sampleWindow_length] at hi
    exact ⟨rfl, hi⟩

/-- **Where all that is cut out is visible the searches agree.** -/
theorem queriesAgree (h : Displayed plain sourced channelIndex channel view)
    (hbegin : channel.visibleBegin ≤ (exactRange view time maxTimeDistance).1)
    (hend : (exactRange view time maxTimeDistance).2 ≤ channel.visibleEnd) :
    QueriesAgree plain sourced channelIndex channel time maxTimeDistance := by
  refine ⟨fun displayed hdisplayed => ?_, fun displayed hdisplayed => ?_,
    fun displayed hdisplayed kind => ?_⟩
  all_goals
    rw [h.plain_eq] at hdisplayed
    obtain rfl := Option.mem_some_iff.mp hdisplayed
  · exact h.nearest_agree hbegin hend
  · exact h.edge_agree hbegin hend
  · exact h.extreme_agree hbegin hend kind

/-! ### An empty visible part -/

/-- Where nothing is visible the materialised path finds nothing, and the path with a source
agrees if its history is flat. -/
theorem agree_of_flat (h : Displayed plain sourced channelIndex channel view)
    (hempty : channel.visibleBegin = channel.visibleEnd) (hflat : view.Flat) :
    QueriesAgree plain sourced channelIndex channel time maxTimeDistance := by
  have hzero : channel.visibleEnd - channel.visibleBegin = 0 := by omega
  have hnothing : (view.sampleWindow channel.visibleBegin channel.visibleEnd).samples = [] := by
    rw [← List.length_eq_zero_iff, sampleWindow_length]
    exact hzero
  have hvalue : ∀ i, i < (exactRange view time maxTimeDistance).2 -
        (exactRange view time maxTimeDistance).1 →
      (exactRange view time maxTimeDistance).1 + i < view.size ∧
        (view.sampleWindow (exactRange view time maxTimeDistance).1
          (exactRange view time maxTimeDistance).2).valueAt i =
        (view.sample ((exactRange view time maxTimeDistance).1 + i)).value := by
    intro i hi
    have hsize := view.range_le_size (time - maxTimeDistance) (time + maxTimeDistance) true
    unfold exactRange at hi ⊢
    unfold valueAt
    rw [sampleWindow_getD (by omega)]
    exact ⟨by omega, rfl⟩
  have hspan : ∀ i j, i < (exactRange view time maxTimeDistance).2 -
        (exactRange view time maxTimeDistance).1 →
      j < (exactRange view time maxTimeDistance).2 - (exactRange view time maxTimeDistance).1 →
      (view.sampleWindow (exactRange view time maxTimeDistance).1
          (exactRange view time maxTimeDistance).2).valueAt i -
        (view.sampleWindow (exactRange view time maxTimeDistance).1
          (exactRange view time maxTimeDistance).2).valueAt j ≤ kMathEpsilon := by
    intro i j hi hj
    rw [(hvalue i hi).2, (hvalue j hj).2]
    exact hflat.1 _ _ (hvalue i hi).1 (hvalue j hj).1
  refine ⟨fun displayed hdisplayed => ?_, fun displayed hdisplayed => ?_,
    fun displayed hdisplayed kind => ?_⟩
  · refine Agree.of_none ?_ ?_
    · rcases lt_or_ge maxTimeDistance 0 with hnegative | hdistance
      · exact h.sourced_nearest_none hnegative
      · rw [h.sourced_nearest hdistance]
        have hnone : min (view.range time time true).2 channel.visibleEnd -
            max (view.range time time true).1 channel.visibleBegin = 0 := by omega
        rw [hnone]
        rfl
    · rw [h.plain_nearest]
      unfold nearestSample
      rw [hnothing]
      rfl
  · refine Agree.of_none ?_ ?_
    · rw [h.sourced_edge, strongestEdge_flat]
      · rfl
      · rw [sampleWindow_length]
        exact hspan
    · rw [h.plain_edge]
      unfold strongestEdge
      rw [hnothing]
      rfl
  · refine Agree.of_none ?_ ?_
    · rw [h.sourced_extreme]
      rcases le_or_gt maxTimeDistance 0 with hle | hpos
      · rw [localExtreme_none hle]
        rfl
      · have hnone := (@localExtreme_spec (view.sampleWindow
          (exactRange view time maxTimeDistance).1 (exactRange view time maxTimeDistance).2)
          channelIndex time maxTimeDistance kind hpos).2.2
        rw [hnone]
        · rfl
        · rw [sampleWindow_length]
          rintro i hi ⟨⟨hfirst, hlast⟩, hlocal⟩
          rw [sampleWindow_length] at hlast
          obtain ⟨hsize, hnext⟩ := hvalue (i + 1) (by omega)
          have hprevious : (exactRange view time maxTimeDistance).1 + (i - 1) =
              (exactRange view time maxTimeDistance).1 + i - 1 := by omega
          rw [(hvalue (i - 1) (by omega)).2, (hvalue i hi).2, hnext, hprevious,
            ← Nat.add_assoc, hflat.2 kind _ (by omega) (by omega)] at hlocal
          cases hlocal
        · rw [sampleWindow_length]
          exact hspan
    · rw [h.plain_extreme]
      unfold localExtreme
      rw [hnothing]
      rfl

/-- If nothing is visible and the searches agree, the history is flat: a search around all of it
finds no extreme. -/
theorem flat_of_agree (h : Displayed plain sourced channelIndex channel view)
    (hempty : channel.visibleBegin = channel.visibleEnd)
    (hagree : ∀ time maxTimeDistance,
      QueriesAgree plain sourced channelIndex channel time maxTimeDistance) : view.Flat := by
  rcases Nat.eq_zero_or_pos view.size with hzero | hpos
  · exact ⟨fun i j hi => by omega, fun kind i _ hi => by omega⟩
  have hspan := h.times.le_of_le (Nat.zero_le (view.size - 1)) (by omega)
  have hpositive : 0 < view.time (view.size - 1) - view.time 0 + 1 := by linarith
  generalize hcenter : view.time 0 = center at hspan hpositive
  generalize hreach : view.time (view.size - 1) - center + 1 = reach at hpositive
  have hsurrounds := h.times.surrounds (t := center) hpositive.le
  have hfirst : (exactRange view center reach).1 = 0 := by
    by_contra hne
    have := hsurrounds.before 0 (Nat.zero_le _) hne
    linarith
  have hlast : (exactRange view center reach).2 = view.size := by
    by_contra hne
    have hle := view.range_le_size (center - reach) (center + reach) true
    have := hsurrounds.after (view.size - 1) (by omega) hne (by omega)
    linarith
  have hnear : ∀ i < view.size,
      (view.sampleWindow 0 view.size).Near center reach i ∧
        (view.sampleWindow 0 view.size).valueAt i = (view.sample i).value := by
    intro i hi
    have hget := @sampleWindow_getD view 0 view.size i (by omega)
    rw [Nat.zero_add] at hget
    unfold WaveDisplayChannel.Near valueAt
    rw [hget]
    have hearly := h.times.le_of_le (Nat.zero_le i) hi
    have hlate := h.times.le_of_le (Nat.le_sub_one_of_lt hi) (by omega : view.size - 1 < view.size)
    have htime : (view.sample i).time = view.time i := rfl
    rw [htime]
    exact ⟨abs_le.mpr ⟨by linarith, by linarith⟩, rfl⟩
  have hnothing : ∀ kind, (view.sampleWindow 0 view.size).localExtreme channelIndex center reach
      kind = none := by
    intro kind
    have hfound := ((hagree center reach).extreme _ h.plain_eq kind).found
    have hplain : (view.sampleWindow channel.visibleBegin channel.visibleEnd).localExtreme
        channelIndex center reach kind = none := by
      have hlength := @sampleWindow_length view channel.visibleBegin
        channel.visibleEnd
      rw [hempty, Nat.sub_self, List.length_eq_zero_iff] at hlength
      unfold localExtreme
      rw [hempty, hlength]
      rfl
    rw [h.plain_extreme, hplain, h.sourced_extreme, hfirst, hlast, Option.isSome_map,
      Option.isSome_none, Option.isSome_eq_false_iff, Option.isNone_iff_eq_none] at hfound
    exact hfound
  have hspec := fun kind => (@localExtreme_spec (view.sampleWindow 0 view.size)
    channelIndex center reach kind hpositive).2.1 (hnothing kind)
  simp only [sampleWindow_length, Nat.sub_zero] at hspec
  refine ⟨fun i j hi hj => ?_, fun kind i hi hnext => ?_⟩
  · have hle := (hspec .maximum).2 i j hi hj (hnear i hi).1 (hnear j hj).1
    rwa [(hnear i hi).2, (hnear j hj).2] at hle
  · have hnot := (hspec kind).1 i (by omega) (hnear i (by omega)).1
    unfold WaveDisplayChannel.LocalAt at hnot
    rw [sampleWindow_length, (hnear (i - 1) (by omega)).2,
      (hnear i (by omega)).2, (hnear (i + 1) hnext).2] at hnot
    rw [← Bool.not_eq_true]
    exact fun hlocal => hnot ⟨⟨hi, hnext⟩, hlocal⟩

/-! ### A visible part that is not whole -/

/-- Before the first and after the last sample the search with a source looks at one sample, and
misses what is visible behind it. -/
theorem whole_of_agree (h : Displayed plain sourced channelIndex channel view)
    (hsome : channel.visibleBegin < channel.visibleEnd)
    (hagree : ∀ time maxTimeDistance,
      QueriesAgree plain sourced channelIndex channel time maxTimeDistance) :
    channel.visibleBegin = 0 ∧ channel.visibleEnd = view.size := by
  have hend := h.end_le_size
  -- a time from which the search with a source sees nothing that is visible
  have hmissed : ∀ time,
      min (view.range time time true).2 channel.visibleEnd ≤
        max (view.range time time true).1 channel.visibleBegin → False := by
    intro time hnone
    have hdistance : 0 ≤ |view.time channel.visibleBegin - time| := abs_nonneg _
    have hfound := ((hagree time |view.time channel.visibleBegin - time|).nearest _
      h.plain_eq).found
    have hzero : min (view.range time time true).2 channel.visibleEnd -
        max (view.range time time true).1 channel.visibleBegin = 0 := by omega
    have hplain : WaveQueryView.IsNearest view channelIndex channel.visibleBegin time
        |view.time channel.visibleBegin - time|
        {i | channel.visibleBegin ≤ i ∧ i < channel.visibleEnd} _ :=
      h.times.nearestSample hend channelIndex time |view.time channel.visibleBegin - time|
    rw [h.sourced_nearest hdistance, hzero, h.plain_nearest] at hfound
    generalize (view.sampleWindow channel.visibleBegin channel.visibleEnd).nearestSample
      channelIndex time |view.time channel.visibleBegin - time| = result at hplain hfound
    cases hplain with
    | none hfar => exact absurd (hfar channel.visibleBegin ⟨Nat.le_refl _, hsome⟩) (lt_irrefl _)
    | some hi hnear hleast => cases hfound
  have hbounds : ∀ time, view.range time time true =
      (view.bound time false - 1,
        if view.bound time true < view.size then view.bound time true + 1
        else view.bound time true) := by
    intro time
    have hordered : ordered time time = (time, time) := ite_self _
    unfold range
    rw [hordered]
    simp only [Bool.true_and, decide_eq_true_eq, Prod.mk.injEq, and_true]
    split
    · rfl
    · omega
  constructor
  · by_contra hne
    refine hmissed (view.time 0 - 1) ?_
    obtain ⟨hlower, -, hupper, -⟩ := h.times.bounds (view.time 0 - 1)
    have hnone : view.bound (view.time 0 - 1) true = 0 := by
      by_contra hpos
      have := hupper 0 (by omega)
      linarith
    rw [hbounds, hnone]
    dsimp only
    split
    · omega
    · omega
  · by_contra hne
    refine hmissed (view.time (view.size - 1) + 1) ?_
    obtain ⟨-, hlower, -, -⟩ := h.times.bounds (view.time (view.size - 1) + 1)
    have hall : view.size ≤ view.bound (view.time (view.size - 1) + 1) false := by
      by_contra hlt
      have := hlower (view.size - 1) (by omega) (by omega)
      linarith
    rw [hbounds]
    dsimp only
    omega

end Displayed

/-- The times of a channel increase along every axis, if those of its samples do. -/
theorem WaveSnapshot.times_increase {snapshot : WaveSnapshot ℚ} {sampleFrequencyHz : ℚ}
    {channel : SnapshotChannel ℚ} (htimes : channel.samples.Pairwise fun a b => a.time < b.time) :
    (snapshot.view sampleFrequencyHz channel).TimesIncrease := by
  intro i j hij hj
  have hindex : ((channel.sampleIndexOffset + i : ℕ) : ℚ) < (channel.sampleIndexOffset + j : ℕ) := by
    exact_mod_cast Nat.add_lt_add_left hij _
  have hsize : j < channel.samples.length := hj
  unfold time
  cases (snapshot.view sampleFrequencyHz channel).axis with
  | scriptTime =>
    have hlt := List.pairwise_iff_getElem.mp htimes i j (by omega) hsize hij
    show (channel.samples.getD i default).time < (channel.samples.getD j default).time
    rwa [List.getD_eq_getElem _ _ (by omega), List.getD_eq_getElem _ _ hsize]
  | sampleIndex => exact hindex
  | sampleFrequency =>
    dsimp only
    split
    · rename_i hpositive
      have hfrequency : 0 < (snapshot.view sampleFrequencyHz channel).frequency :=
        of_decide_eq_true hpositive
      exact div_lt_div_of_pos_right hindex hfrequency
    · exact hindex

/-- Three samples, one step apart in time; all of them are visible, or those from `begin` on. -/
def stepChannel (begin : ℕ) (hbegin : begin ≤ 3) : SnapshotChannel ℚ where
  samples := [⟨0, 0⟩, ⟨1, 5⟩, ⟨2, 5⟩]
  sampleIndexOffset := 0
  summaryIndex := none
  ratio := 1
  scale := 1
  offset := 0
  visibleBegin := begin
  visibleEnd := 3
  bitDisplayEnabled := false
  begin_le_end := hbegin
  end_le_total := Nat.le_refl 3

def stepSnapshot (begin : ℕ) (hbegin : begin ≤ 3) : WaveSnapshot ℚ where
  channels := [stepChannel begin hbegin]
  displayFormula := .offsetThenScale

end ProtoScope.Plot
