/-
Snapping the cursor to a bit.

The bits of a digital channel are drawn as lanes.  `findNearestBitTransition` looks for the
sample of a lane that is nearest to the cursor in time and height, and prefers one at which the
bit changes.  With a source it asks for the last and the first matching edge on either side of
the cursor and looks at the samples next to it; otherwise it scans every displayed sample.
-/
import ProtoScope.Plot.DisplayData

namespace ProtoScope.Plot

/-- Where a lane is drawn; its pixels are not followed here. -/
structure BitLaneLayoutEntry (α : Type) where
  parentChannelIndex : ℕ
  bitIndex : ℕ
  laneIndex : ℕ
  lowY : α
  highY : α
deriving DecidableEq, Repr

structure BitLaneReadout (α : Type) where
  parentChannelIndex : ℕ
  bitIndex : ℕ
  laneIndex : ℕ
  value : Bool
  y : α
  edge : Bool
deriving DecidableEq, Repr

/-- A `CursorReadout` with its `bit`. -/
structure BitReadout (α : Type) extends CursorReadout α where
  bit : BitLaneReadout α
deriving DecidableEq

structure BitSnapCandidate (α : Type) where
  readout : BitReadout α
  score : α
  timeDistance : α
  laneIndex : ℕ
  sourceSampleIndex : ℕ

/-- The best candidate at which the bit changes, and the best of the others. -/
structure BestSnaps (α : Type) where
  edge : Option (BitSnapCandidate α) := none
  stable : Option (BitSnapCandidate α) := none

variable {α : Type} [WaveArith α]

open WaveScalar WaveArith

/-! ### Candidates -/

/-- `std::trunc` -/
def trunc (x : α) : α := if lt x zero then neg (floor (neg x)) else floor x

def rawBitsFromSampleValue (value : α) : UInt64 :=
  if !isFinite value then 0
  else if le (trunc value) zero then 0
  else if le uint64Max (trunc value) then UInt64.ofNat (2 ^ 64 - 1)
  else toUInt64 (trunc value)

def rawBitEnabled (value : α) (bitIndex : ℕ) : Bool :=
  if kMaxBitDisplayCount.toNat ≤ bitIndex then false
  else (rawBitsFromSampleValue value >>> UInt64.ofNat bitIndex) &&& 1 ≠ 0

/-- The order of candidates: by score, and within the tolerance by the distance in time, then by
lane and sample. -/
def bitSnapCandidateBetter (candidate current : BitSnapCandidate α) : Bool :=
  if lt candidate.score (sub current.score kMathEpsilon) then true
  else if lt kMathEpsilon (fabs (sub candidate.score current.score)) then false
  else if lt candidate.timeDistance (sub current.timeDistance kMathEpsilon) then true
  else if lt kMathEpsilon (fabs (sub candidate.timeDistance current.timeDistance)) then false
  else if candidate.laneIndex ≠ current.laneIndex then
    decide (candidate.laneIndex < current.laneIndex)
  else decide (candidate.sourceSampleIndex < current.sourceSampleIndex)

def BitLaneLayoutEntry.y (lane : BitLaneLayoutEntry α) (state : Bool) : α :=
  if state then lane.highY else lane.lowY

/-- A sample of a lane as a candidate. -/
def bitSnapCandidate (lane : BitLaneLayoutEntry α) (time plotY displayTime : α) (index : ℕ)
    (state transition : Bool) : BitSnapCandidate α :=
  let y := lane.y state
  let dt := fabs (sub displayTime time)
  let dy := fabs (sub y plotY)
  { readout :=
      { valid := true
        channelIndex := lane.parentChannelIndex
        sampleIndex := index
        time := displayTime
        value := if state then ofSize 1 else ofSize 0
        displayValue := y
        bit :=
          { parentChannelIndex := lane.parentChannelIndex
            bitIndex := lane.bitIndex
            laneIndex := lane.laneIndex
            value := state
            y := y
            edge := transition } }
    score := add (mul dt dt) (mul dy dy)
    timeDistance := dt
    laneIndex := lane.laneIndex
    sourceSampleIndex := index }

def keepBetter (best : Option (BitSnapCandidate α)) (candidate : BitSnapCandidate α) :
    Option (BitSnapCandidate α) :=
  match best with
  | none => some candidate
  | some current => if bitSnapCandidateBetter candidate current then some candidate else best

namespace BestSnaps

def consider (best : BestSnaps α) (transition : Bool) (candidate : BitSnapCandidate α) :
    BestSnaps α :=
  if transition then { best with edge := keepBetter best.edge candidate }
  else { best with stable := keepBetter best.stable candidate }

def readout (best : BestSnaps α) : Option (BitReadout α) :=
  match best.edge with
  | some candidate => some candidate.readout
  | none => best.stable.map (·.readout)

end BestSnaps

/-! ### With a source -/

/-- `accept` -/
def acceptSnap (query : WaveQueryView α) (lane : BitLaneLayoutEntry α)
    (time plotY maxTimeDistance maxValueDistance : α) (best : BestSnaps α) (index : ℕ)
    (state transition : Bool) : BestSnaps α :=
  if lt maxTimeDistance (fabs (sub (query.time index) time)) ||
      lt maxValueDistance (fabs (sub (lane.y state) plotY)) then best
  else
    best.consider transition
      (bitSnapCandidate lane time plotY (query.time index) index state transition)

/-- An edge that was found is accepted. -/
def acceptEdge (query : WaveQueryView α) (lane : BitLaneLayoutEntry α)
    (time plotY maxTimeDistance maxValueDistance : α) (best : BestSnaps α) (state : Bool) :
    Option ℕ → BestSnaps α
  | some index =>
    acceptSnap query lane time plotY maxTimeDistance maxValueDistance best index state true
  | none => best

/-- The edges to a state: the last one up to the cursor and the first one from it on. -/
def indexedEdges (query : WaveQueryView α) (lane : BitLaneLayoutEntry α)
    (time plotY maxTimeDistance maxValueDistance : α) (best : BestSnaps α) (state : Bool) :
    BestSnaps α :=
  if lt maxValueDistance (fabs (sub (lane.y state) plotY)) then best
  else
    let best := acceptEdge query lane time plotY maxTimeDistance maxValueDistance best state
      (query.bitEdge (sub time maxTimeDistance) time lane.bitIndex state true)
    acceptEdge query lane time plotY maxTimeDistance maxValueDistance best state
      (query.bitEdge time (add time maxTimeDistance) lane.bitIndex state false)

def indexedLane (displayData : WaveDisplayData α)
    (time plotY maxTimeDistance maxValueDistance : α) (best : BestSnaps α)
    (lane : BitLaneLayoutEntry α) : BestSnaps α :=
  match displayData.channels[lane.parentChannelIndex]? with
  | none => best
  | some channel =>
    match channel.source with
    | none => best
    | some source =>
      let query := channel.query source
      let best := [false, true].foldl
        (indexedEdges query lane time plotY maxTimeDistance maxValueDistance) best
      let range := query.range time time true
      (List.range' range.1 (range.2 - range.1)).foldl
        (fun best i =>
          acceptSnap query lane time plotY maxTimeDistance maxValueDistance best i
            (rawBitEnabled (source.samples.getD i default).value lane.bitIndex) false)
        best

/-! ### Without a source -/

/-- One displayed sample; the state is that of the sample before and the best so far. -/
def scanSample (channel : SnapshotChannel α) (displayChannel : WaveDisplayChannel α)
    (lane : BitLaneLayoutEntry α) (time plotY maxTimeDistance maxValueDistance : α) (begin : ℕ)
    (scan : Bool × BestSnaps α) (displaySampleIndex : ℕ) : Bool × BestSnaps α :=
  let sourceSampleIndex := begin + displaySampleIndex
  let currentState :=
    rawBitEnabled (channel.samples.getD sourceSampleIndex default).value lane.bitIndex
  let transition := decide (0 < displaySampleIndex) && currentState != scan.1
  let displayTime := (displayChannel.samples.getD displaySampleIndex default).time
  (currentState,
    if !isFinite displayTime then scan.2
    else if le (fabs (sub displayTime time)) maxTimeDistance &&
        le (fabs (sub (lane.y currentState) plotY)) maxValueDistance then
      scan.2.consider transition
        (bitSnapCandidate lane time plotY displayTime sourceSampleIndex currentState transition)
    else scan.2)

/-- The lane is too far above or below the cursor. -/
def laneOutOfReach (lane : BitLaneLayoutEntry α) (plotY maxValueDistance : α) : Bool :=
  let least := if lt lane.highY lane.lowY then lane.highY else lane.lowY
  let greatest := if lt lane.lowY lane.highY then lane.highY else lane.lowY
  lt plotY (sub least maxValueDistance) || lt (add greatest maxValueDistance) plotY

def scanLane (snapshot : WaveSnapshot α) (displayData : WaveDisplayData α)
    (time plotY maxTimeDistance maxValueDistance : α) (best : BestSnaps α)
    (lane : BitLaneLayoutEntry α) : BestSnaps α :=
  if laneOutOfReach lane plotY maxValueDistance then best
  else
    match snapshot.channels[lane.parentChannelIndex]?,
      displayData.channels[lane.parentChannelIndex]? with
    | some channel, some displayChannel =>
      if channel.samples.isEmpty || displayChannel.samples.isEmpty then best
      else
        let begin := min channel.visibleBegin channel.samples.length
        let fin := min channel.visibleEnd channel.samples.length
        if fin ≤ begin then best
        else
          let candidateCount := min displayChannel.samples.length (fin - begin)
          let previousState :=
            rawBitEnabled (channel.samples.getD begin default).value lane.bitIndex
          ((List.range candidateCount).foldl
            (scanSample channel displayChannel lane time plotY maxTimeDistance maxValueDistance
              begin)
            (previousState, best)).2
    | _, _ => best

/-! ### The search -/

def findNearestBitTransition (snapshot : WaveSnapshot α) (displayData : WaveDisplayData α)
    (lanes : List (BitLaneLayoutEntry α)) (time plotY maxTimeDistance maxValueDistance : α) :
    Option (BitReadout α) :=
  if !isFinite time || !isFinite plotY || !isFinite maxTimeDistance ||
      !isFinite maxValueDistance || lt maxTimeDistance zero || lt maxValueDistance zero then none
  else if displayData.channels.any fun channel => channel.source.isSome then
    (lanes.foldl (indexedLane displayData time plotY maxTimeDistance maxValueDistance)
      {}).readout
  else
    (lanes.foldl (scanLane snapshot displayData time plotY maxTimeDistance maxValueDistance)
      {}).readout

end ProtoScope.Plot
