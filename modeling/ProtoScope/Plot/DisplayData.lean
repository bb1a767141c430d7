/-
What a waveform window displays, and the searches on it.

Display data comes in two kinds.  `buildDisplayDataInto` materialises the visible samples of
every channel; `buildQueryDisplayDataInto` keeps the channel itself as the source and takes only
as many points as may be drawn.  The searches of the cursor (the nearest sample, the strongest
edge, the local extreme) scan the materialised samples; where there is a source they cut the
samples they need out of its whole history and translate the indices back.

Labels, units, colours and statistics of a channel and the time unit of the data are not
followed here.
-/
import ProtoScope.Plot.Envelope
import ProtoScope.Plot.WaveQueryView

namespace ProtoScope.Plot

open ProtoScope.Library

/-- A channel of a snapshot with the part of its history that is visible. -/
structure SnapshotChannel (α : Type) extends ChannelView α where
  visibleBegin : ℕ
  visibleEnd : ℕ
  /-- `bitDisplay.enabled` -/
  bitDisplayEnabled : Bool
  begin_le_end : visibleBegin ≤ visibleEnd
  end_le_total : visibleEnd ≤ samples.length

structure WaveSnapshot (α : Type) where
  channels : List (SnapshotChannel α)
  /-- `config.displayFormula` -/
  displayFormula : WaveDisplayFormula

/-- The axis, the frequency and the formula are read only where there is a source. -/
structure WaveDisplayChannel (α : Type) where
  samples : List (WaveSample α) := []
  actualValues : List α := []
  source : Option (SnapshotChannel α) := none
  sourceIndices : List ℕ := []
  axis : WaveTimeAxisSource := .sampleIndex
  frequency : Option α := none
  formula : WaveDisplayFormula := .offsetThenScale

structure WaveDisplayData (α : Type) where
  axisSource : WaveTimeAxisSource
  channels : List (WaveDisplayChannel α)

inductive WaveExtremeKind where
  | maximum
  | minimum
deriving DecidableEq, Repr

variable {α : Type} [WaveArith α]

open WaveScalar WaveArith

/-- `std::abs` -/
def fabs (x : α) : α := if lt x zero then neg x else x

/-- `kEpsilon` of the display data: `1e-12` -/
def kMathEpsilon : α := div (ofSize 1) (ofSize (10 ^ 12))

/-- `0.5 * x` -/
def half (x : α) : α := mul (div (ofSize 1) (ofSize 2)) x

/-- A difference of sizes, which wraps around below zero. -/
def sizeSub (a b : ℕ) : ℕ := if b ≤ a then a - b else a + 2 ^ 64 - b

/-! ### Building the data -/

def displaySampleRange (channel : SnapshotChannel α) : ℕ × ℕ :=
  if channel.samples.isEmpty then (0, 0)
  else
    let begin := min channel.visibleBegin channel.samples.length
    let fin := min channel.visibleEnd channel.samples.length
    (begin, if fin < begin then begin else fin)

/-- `std::ceil` -/
def ceil (x : α) : α := neg (floor (neg x))

/-- The samples of a channel that a window of times shows on the axis of the sample frequency, by
rounding, with a neighbour on either side. -/
def sampleFrequencyRange (channel : ChannelView α) (minTime maxTime sampleFrequencyHz : α) :
    ℕ × ℕ :=
  let times := WaveQueryView.ordered minTime maxTime
  let clampedMinTime := if lt zero times.1 then times.1 else zero
  let clampedMaxTime := if lt clampedMinTime times.2 then times.2 else clampedMinTime
  let beginIndex := (toUInt64 (ceil (mul clampedMinTime sampleFrequencyHz))).toNat
  let endIndex := (toUInt64 (floor (mul clampedMaxTime sampleFrequencyHz)) + 1).toNat
  let offset := channel.sampleIndexOffset
  let total := channel.samples.length
  let begin := min (if beginIndex ≤ offset then 0 else beginIndex - offset) total
  let fin := min (if endIndex ≤ offset then 0 else endIndex - offset) total
  let fin := if fin < begin then begin else fin
  (if 0 < begin then begin - 1 else begin, if fin < total then fin + 1 else fin)

theorem sampleFrequencyRange_le (channel : ChannelView α)
    (minTime maxTime sampleFrequencyHz : α) :
    let range := sampleFrequencyRange channel minTime maxTime sampleFrequencyHz
    range.1 ≤ range.2 ∧ range.2 ≤ channel.samples.length := by
  unfold sampleFrequencyRange
  dsimp only
  generalize (if _ ≤ channel.sampleIndexOffset then 0 else _) = begin
  generalize (if _ ≤ channel.sampleIndexOffset then 0 else _) = fin
  split <;> split <;> split <;> omega

def applySampleFrequencyVisibleRange (snapshot : WaveSnapshot α)
    (minTime maxTime sampleFrequencyHz : α) : WaveSnapshot α :=
  if le sampleFrequencyHz zero || !isFinite sampleFrequencyHz then snapshot
  else
    { snapshot with
      channels := snapshot.channels.map fun channel =>
        { channel with
          visibleBegin :=
            (sampleFrequencyRange channel.toChannelView minTime maxTime sampleFrequencyHz).1
          visibleEnd :=
            (sampleFrequencyRange channel.toChannelView minTime maxTime sampleFrequencyHz).2
          begin_le_end :=
            (sampleFrequencyRange_le channel.toChannelView minTime maxTime sampleFrequencyHz).1
          end_le_total :=
            (sampleFrequencyRange_le channel.toChannelView minTime maxTime sampleFrequencyHz).2 } }

/-- The loop of `scriptTimeUsable` over the samples after the first one. -/
def timesIncrease : α → List (WaveSample α) → Bool
  | _, [] => true
  | previous, current :: samples =>
    isFinite current.time && !le current.time previous && timesIncrease current.time samples

def scriptTimeUsable (channel : SnapshotChannel α) (begin fin : ℕ) : Bool :=
  if channel.samples.isEmpty || decide (fin ≤ begin) then false
  else
    match channel.summaryIndex with
    | some index =>
      (index.query channel.samples channel.sampleIndexOffset begin fin {}).1.timeIncreasing
    | none =>
      match (channel.samples.drop begin).take (fin - begin) with
      | [] => false
      | first :: samples => isFinite first.time && timesIncrease first.time samples

def hasUsableScriptTime (snapshot : WaveSnapshot α) : Bool :=
  snapshot.channels.any fun channel =>
    scriptTimeUsable channel (displaySampleRange channel).1 (displaySampleRange channel).2

def resolveDisplayTimeAxis (snapshot : WaveSnapshot α) (sampleFrequencyHz : α) :
    WaveTimeAxisSource :=
  if lt zero sampleFrequencyHz && isFinite sampleFrequencyHz then .sampleFrequency
  else if hasUsableScriptTime snapshot then .scriptTime
  else .sampleIndex

def resolveDisplaySampleTime (source : WaveSample α) (sampleIndexOffset sampleIndex : ℕ)
    (sampleFrequencyHz : α) : WaveTimeAxisSource → α
  | .sampleFrequency => div (ofSize (sampleIndexOffset + sampleIndex)) sampleFrequencyHz
  | .scriptTime => source.time
  | .sampleIndex => ofSize (sampleIndexOffset + sampleIndex)

def actualValue (channel : SnapshotChannel α) (sampleIndex : ℕ) : α :=
  mul (channel.samples.getD sampleIndex default).value channel.ratio

def displaySample (channel : SnapshotChannel α) (formula : WaveDisplayFormula)
    (sampleFrequencyHz : α) (axisSource : WaveTimeAxisSource) (sampleIndex : ℕ) : WaveSample α where
  time := resolveDisplaySampleTime (channel.samples.getD sampleIndex default)
    channel.sampleIndexOffset sampleIndex sampleFrequencyHz axisSource
  value :=
    match formula with
    | .offsetThenScale =>
      mul (add (actualValue channel sampleIndex) channel.offset) channel.scale
    | .scaleThenOffset =>
      add (mul (actualValue channel sampleIndex) channel.scale) channel.offset

def fillDisplayChannel (channel : SnapshotChannel α) (formula : WaveDisplayFormula)
    (sampleFrequencyHz : α) (axisSource : WaveTimeAxisSource) : WaveDisplayChannel α :=
  let range := displaySampleRange channel
  if range.2 ≤ range.1 then {}
  else
    let indices := List.range' range.1 (range.2 - range.1)
    { samples := indices.map (displaySample channel formula sampleFrequencyHz axisSource)
      actualValues := indices.map (actualValue channel) }

def buildDisplayDataInto (snapshot : WaveSnapshot α) (sampleFrequencyHz : α) : WaveDisplayData α :=
  let axisSource := resolveDisplayTimeAxis snapshot sampleFrequencyHz
  { axisSource := axisSource
    channels := snapshot.channels.map fun channel =>
      fillDisplayChannel channel snapshot.displayFormula sampleFrequencyHz axisSource }

/-- The view of a display channel on its source. -/
def WaveDisplayChannel.query (channel : WaveDisplayChannel α) (source : SnapshotChannel α) :
    WaveQueryView α where
  channel := source.toChannelView
  axis := channel.axis
  frequency := channel.frequency.getD zero
  formula := channel.formula

/-- The axis of the data with sources: times in a snapshot ascend, so one channel that has
samples in its visible part decides. -/
def resolveQueryTimeAxis (snapshot : WaveSnapshot α) (sampleFrequencyHz : α) : WaveTimeAxisSource :=
  if isFinite sampleFrequencyHz && lt zero sampleFrequencyHz then .sampleFrequency
  else if snapshot.channels.any fun channel =>
      !channel.samples.isEmpty &&
        scriptTimeUsable channel channel.visibleBegin channel.visibleEnd then .scriptTime
  else .sampleIndex

def fillQueryDisplayChannel (source : SnapshotChannel α) (formula : WaveDisplayFormula)
    (sampleFrequencyHz : α) (axisSource : WaveTimeAxisSource) (pointBudget : ℕ)
    (timeRange : Option (α × α)) (mode : WaveDownsampleMode) : WaveDisplayChannel α :=
  let output : WaveDisplayChannel α :=
    { source := some source
      axis := axisSource
      frequency := some sampleFrequencyHz
      formula := formula }
  let begin := (displaySampleRange source).1
  let fin := (displaySampleRange source).2
  if begin = fin then output
  else
    let query := output.query source
    let channelMode := if source.bitDisplayEnabled then .stableEdges else mode
    let sourceIndices :=
      match channelMode, timeRange with
      | .stableEdges, some (minTime, maxTime) =>
        query.traceIndices minTime maxTime pointBudget true channelMode
      | _, _ =>
        query.traceIndices (query.time begin) (query.time (fin - 1)) pointBudget false channelMode
    { output with
      sourceIndices := sourceIndices
      samples := sourceIndices.map query.sample
      actualValues := sourceIndices.map query.actual }

def buildQueryDisplayDataInto (snapshot : WaveSnapshot α) (sampleFrequencyHz : α)
    (pointBudget : ℕ) (timeRange : Option (α × α)) (mode : WaveDownsampleMode) :
    WaveDisplayData α :=
  let axisSource := resolveQueryTimeAxis snapshot sampleFrequencyHz
  { axisSource := axisSource
    channels := snapshot.channels.map fun source =>
      fillQueryDisplayChannel source snapshot.displayFormula sampleFrequencyHz axisSource
        pointBudget timeRange mode }

namespace WaveDisplayChannel

/-- The samples of a time range, cut out of the whole history of the source. -/
def extractDisplayWindow (channel : WaveDisplayChannel α) (minTime maxTime : α) (guards : Bool) :
    WaveDisplayChannel α :=
  match channel.source with
  | none => channel
  | some source =>
    let query := channel.query source
    let range := query.range minTime maxTime guards
    let indices := List.range' range.1 (range.2 - range.1)
    { samples := indices.map query.sample
      actualValues := indices.map query.actual
      sourceIndices := indices }

def resolveActualValue (channel : WaveDisplayChannel α) (sampleIndex : ℕ) (fallbackValue : α) : α :=
  channel.actualValues.getD sampleIndex fallbackValue

def makeCursorReadout (channel : WaveDisplayChannel α) (channelIndex sampleIndex : ℕ) :
    CursorReadout α :=
  let sample := channel.samples.getD sampleIndex default
  { valid := true
    channelIndex := channelIndex
    sampleIndex := sampleIndex
    time := sample.time
    value := channel.resolveActualValue sampleIndex sample.value
    displayValue := sample.value }

/-! ### The nearest sample -/

/-- One sample of the source in the loop of `findNearestDisplayByTime`; the state is what is
found and how far it may be. -/
def nearestOfSource (query : WaveQueryView α) (source : SnapshotChannel α) (channelIndex : ℕ)
    (time : α) (fullHistory : Bool) (state : Option (CursorReadout α) × α) (i : ℕ) :
    Option (CursorReadout α) × α :=
  let point := query.sample i
  let d := fabs (sub point.time time)
  if le d state.2 && (state.1.isNone || lt d state.2) then
    (some
      { valid := true
        channelIndex := channelIndex
        sampleIndex := if fullHistory then i else i - source.visibleBegin
        time := point.time
        value := query.actual i
        displayValue := point.value }, d)
  else state

/-- `consider`: a sample is taken where it is within reach and nearer than the best so far. -/
def considerNearest (channel : WaveDisplayChannel α) (channelIndex : ℕ) (time maxTimeDistance : α)
    (best : Option (CursorReadout α)) (index : ℕ) : Option (CursorReadout α) :=
  match channel.samples[index]? with
  | none => best
  | some sample =>
    let distance := fabs (sub sample.time time)
    if lt maxTimeDistance distance then best
    else
      match best with
      | some found =>
        if lt distance (fabs (sub found.time time)) then
          some (channel.makeCursorReadout channelIndex index)
        else best
      | none => some (channel.makeCursorReadout channelIndex index)

/-- The nearest of the materialised samples. -/
def nearestSample (channel : WaveDisplayChannel α) (channelIndex : ℕ) (time maxTimeDistance : α) :
    Option (CursorReadout α) :=
  if channel.samples.isEmpty || !isFinite time || !isFinite maxTimeDistance ||
      lt maxTimeDistance zero then none
  else
    let lower := PartitionPoint.find (fun sample : WaveSample α => lt sample.time time)
      channel.samples
    let best := channel.considerNearest channelIndex time maxTimeDistance none lower
    if lower ≠ 0 then channel.considerNearest channelIndex time maxTimeDistance best (lower - 1)
    else best

/-! ### The strongest edge -/

/-- The state of the search: the best edge, its strength and its distance, which is infinite
before one is found. -/
structure EdgeSearch (α : Type) where
  best : Option (CursorReadout α)
  bestScore : α
  bestDistance : Option α

/-- The pair of samples that ends at `index`. -/
def considerEdge (channel : WaveDisplayChannel α) (channelIndex : ℕ)
    (centerTime maxTimeDistance : α) (state : EdgeSearch α) (index : ℕ) : EdgeSearch α :=
  let left := channel.samples.getD (index - 1) default
  let right := channel.samples.getD index default
  if !isFinite left.time || !isFinite left.value || !isFinite right.time ||
      !isFinite right.value then state
  else
    let edgeTime := half (add left.time right.time)
    let distance := fabs (sub edgeTime centerTime)
    if lt maxTimeDistance distance then state
    else
      let score := fabs (sub right.value left.value)
      -- flat pairs are no edges
      if le score kMathEpsilon then state
      else if lt state.bestScore score ||
          (le (fabs (sub score state.bestScore)) kMathEpsilon &&
            state.bestDistance.all (lt distance)) then
        { best := some
            { valid := true
              channelIndex := channelIndex
              sampleIndex := index
              time := edgeTime
              value := channel.resolveActualValue index right.value
              displayValue := half (add left.value right.value) }
          bestScore := score
          bestDistance := some distance }
      else state

/-- The strongest edge of the materialised samples. -/
def strongestEdge (channel : WaveDisplayChannel α) (channelIndex : ℕ)
    (centerTime maxTimeDistance : α) : Option (CursorReadout α) :=
  if decide (channel.samples.length < 2) || !isFinite centerTime || !isFinite maxTimeDistance ||
      le maxTimeDistance zero then none
  else
    ((List.range' 1 (channel.samples.length - 1)).foldl
      (channel.considerEdge channelIndex centerTime maxTimeDistance)
      { best := none, bestScore := zero, bestDistance := none }).best

/-! ### The local extreme -/

def extremeValueBetter (kind : WaveExtremeKind) (candidateValue bestValue : α) : Bool :=
  match kind with
  | .maximum => lt bestValue candidateValue
  | .minimum => lt candidateValue bestValue

/-- A best extreme and its distance. -/
abbrev BestExtreme (α : Type) := Option (CursorReadout α × α)

/-- The state of the search; the least and the greatest value are infinite in the beginning. -/
structure ExtremeSearch (α : Type) where
  bestLocalExtreme : BestExtreme α
  bestWindowExtreme : BestExtreme α
  windowRange : Option (α × α)

/-- `acceptCandidate` -/
def acceptCandidate (channel : WaveDisplayChannel α) (channelIndex : ℕ) (kind : WaveExtremeKind)
    (centerTime : α) (best : BestExtreme α) (index : ℕ) : BestExtreme α :=
  let current := channel.samples.getD index default
  let distance := fabs (sub current.time centerTime)
  match best with
  | none => some (channel.makeCursorReadout channelIndex index, distance)
  | some (readout, bestDistance) =>
    if extremeValueBetter kind current.value readout.displayValue ||
        (le (fabs (sub current.value readout.displayValue)) kMathEpsilon &&
          lt distance bestDistance) then
      some (channel.makeCursorReadout channelIndex index, distance)
    else best

/-- The value joins the range of the values seen so far. -/
def widen (range : Option (α × α)) (value : α) : α × α :=
  match range with
  | none => (value, value)
  | some (least, greatest) =>
    (if lt value least then value else least, if lt greatest value then value else greatest)

/-- The sample is a strict peak or a strict trough between its neighbours. -/
def isLocalExtreme (kind : WaveExtremeKind) (previous current next : α) : Bool :=
  match kind with
  | .maximum => lt previous current && lt next current
  | .minimum => lt current previous && lt current next

def considerExtreme (channel : WaveDisplayChannel α) (channelIndex : ℕ) (kind : WaveExtremeKind)
    (centerTime maxTimeDistance : α) (state : ExtremeSearch α) (index : ℕ) : ExtremeSearch α :=
  let current := channel.samples.getD index default
  if !isFinite current.time || !isFinite current.value then state
  else if lt maxTimeDistance (fabs (sub current.time centerTime)) then state
  else
    let state :=
      { state with
        windowRange := some (widen state.windowRange current.value)
        bestWindowExtreme :=
          channel.acceptCandidate channelIndex kind centerTime state.bestWindowExtreme index }
    if index = 0 ∨ channel.samples.length ≤ index + 1 then state
    else
      let previous := channel.samples.getD (index - 1) default
      let next := channel.samples.getD (index + 1) default
      if !isFinite previous.value || !isFinite next.value then state
      else if isLocalExtreme kind previous.value current.value next.value then
        { state with
          bestLocalExtreme :=
            channel.acceptCandidate channelIndex kind centerTime state.bestLocalExtreme index }
      else state

/-- A strict local extreme, and otherwise the extreme of the window unless it is flat. -/
def ExtremeSearch.result (state : ExtremeSearch α) : Option (CursorReadout α) :=
  match state.bestLocalExtreme with
  | some (readout, _) => some readout
  | none =>
    match state.windowRange with
    | none => none
    | some (least, greatest) =>
      if lt kMathEpsilon (sub greatest least) then state.bestWindowExtreme.map (·.1) else none

/-- The local extreme among the materialised samples. -/
def localExtreme (channel : WaveDisplayChannel α) (channelIndex : ℕ) (centerTime maxTimeDistance : α)
    (kind : WaveExtremeKind) : Option (CursorReadout α) :=
  if channel.samples.isEmpty || !isFinite centerTime || !isFinite maxTimeDistance ||
      le maxTimeDistance zero then none
  else
    ((List.range channel.samples.length).foldl
      (channel.considerExtreme channelIndex kind centerTime maxTimeDistance)
      { bestLocalExtreme := none, bestWindowExtreme := none, windowRange := none }).result

/-- What is found in the window cut out of a source, its index counted from the beginning of
the visible part. -/
def fromSource (exact : WaveDisplayChannel α) (source : SnapshotChannel α)
    (readout : CursorReadout α) : CursorReadout α :=
  { readout with
    sampleIndex := sizeSub (exact.sourceIndices.getD readout.sampleIndex 0) source.visibleBegin }

end WaveDisplayChannel

namespace WaveDisplayData

open WaveDisplayChannel

def findNearestDisplayByTime (displayData : WaveDisplayData α) (channelIndex : ℕ)
    (time maxTimeDistance : α) (fullHistory : Bool) : Option (CursorReadout α) :=
  match displayData.channels[channelIndex]? with
  | none => none
  | some channel =>
    match channel.source with
    | none => channel.nearestSample channelIndex time maxTimeDistance
    | some source =>
      if isFinite time && isFinite maxTimeDistance && le zero maxTimeDistance then
        let query := channel.query source
        let range := query.range time time true
        let first := if fullHistory then range.1 else max range.1 source.visibleBegin
        let last := if fullHistory then range.2 else min range.2 source.visibleEnd
        ((List.range' first (last - first)).foldl
          (nearestOfSource query source channelIndex time fullHistory) (none, maxTimeDistance)).1
      else channel.nearestSample channelIndex time maxTimeDistance

def findStrongestEdgeNearTime (displayData : WaveDisplayData α) (channelIndex : ℕ)
    (centerTime maxTimeDistance : α) : Option (CursorReadout α) :=
  match displayData.channels[channelIndex]? with
  | none => none
  | some channel =>
    match channel.source with
    | none => channel.strongestEdge channelIndex centerTime maxTimeDistance
    | some source =>
      let exact := channel.extractDisplayWindow (sub centerTime maxTimeDistance)
        (add centerTime maxTimeDistance) true
      (exact.strongestEdge channelIndex centerTime maxTimeDistance).map (fromSource exact source)

def findLocalExtremeNearTime (displayData : WaveDisplayData α) (channelIndex : ℕ)
    (centerTime maxTimeDistance : α) (kind : WaveExtremeKind) : Option (CursorReadout α) :=
  match displayData.channels[channelIndex]? with
  | none => none
  | some channel =>
    match channel.source with
    | none => channel.localExtreme channelIndex centerTime maxTimeDistance kind
    | some source =>
      let exact := channel.extractDisplayWindow (sub centerTime maxTimeDistance)
        (add centerTime maxTimeDistance) true
      (exact.localExtreme channelIndex centerTime maxTimeDistance kind).map
        (fromSource exact source)

end WaveDisplayData

end ProtoScope.Plot
