/-
Queries on one channel.

A query view looks at the samples of a channel along a time axis: it finds the samples of a
time range by binary search, reduces them to as many points as may be drawn, turns one bit
of a digital channel into segments, and searches for edges and threshold crossings.  What
it needs of a range it asks of the summary index where the channel has one, and otherwise
of the samples.

The counters of raw samples and summary hits are for display only and are not followed
here.
-/
import Mathlib.Data.Int.Log
import Mathlib.Data.List.Sort
import Mathlib.Data.Rat.Floor
import ProtoScope.Library.PartitionPoint
import ProtoScope.Plot.ChannelSpec
import ProtoScope.Plot.WaveQuery

namespace ProtoScope.Plot

open ProtoScope.Library

/-- The arithmetic the queries compute with. -/
class WaveArith (α : Type) extends WaveScalar α where
  add : α → α → α
  mul : α → α → α
  div : α → α → α
  floor : α → α
  /-- `static_cast<double>` of a size -/
  ofSize : ℕ → α
  /-- `std::exp2(std::ceil(std::log2(x)))` -/
  exp2CeilLog2 : α → α
  /-- `1e-300` -/
  tiny : α

instance : WaveArith Float where
  add := Float.add
  mul := Float.mul
  div := Float.div
  floor := Float.floor
  ofSize := fun size => UInt64.toFloat (UInt64.ofNat size)
  exp2CeilLog2 := fun x => Float.exp2 (Float.ceil (Float.log2 x))
  tiny := 1e-300

/-- Exact arithmetic: every finite double is a rational number. -/
instance : WaveArith ℚ where
  zero := 0
  sub := fun a b => a - b
  neg := fun a => -a
  lt := fun a b => decide (a < b)
  le := fun a b => decide (a ≤ b)
  eq := fun a b => decide (a = b)
  isFinite := fun _ => true
  uint64Max := 2 ^ 64
  toUInt64 := fun a => UInt64.ofNat ⌊a⌋₊
  add := fun a b => a + b
  mul := fun a b => a * b
  div := fun a b => a / b
  floor := fun a => ⌊a⌋
  ofSize := fun size => size
  exp2CeilLog2 := fun x => if x ≤ 0 then 0 else 2 ^ Int.clog 2 x
  tiny := 1 / 10 ^ 300

inductive WaveTimeAxisSource where
  | scriptTime
  | sampleFrequency
  | sampleIndex
deriving DecidableEq, Repr

inductive WaveDownsampleMode where
  | stableEdges
  | legacyUniform
deriving DecidableEq, Repr

structure WaveDigitalSegment (α : Type) where
  beginTime : α
  endTime : α
  firstState : Bool
  lastState : Bool
  activity : Bool
deriving DecidableEq, Repr

/-- The samples a channel shows, the global index of the first, its summary index, and how
values are displayed. -/
structure ChannelView (α : Type) where
  samples : List (WaveSample α)
  sampleIndexOffset : ℕ
  summaryIndex : Option (WaveSummaryIndex α)
  ratio : α
  scale : α
  offset : α

structure WaveQueryView (α : Type) where
  channel : ChannelView α
  axis : WaveTimeAxisSource
  frequency : α
  formula : WaveDisplayFormula

/-- `std::clamp` of an index -/
def clampIndex (value lo hi : ℕ) : ℕ :=
  if value < lo then lo else if hi < value then hi else value

namespace WaveQueryView

variable {α : Type} [WaveArith α]

open WaveScalar WaveArith

def size (view : WaveQueryView α) : ℕ := view.channel.samples.length

/-- `channel_.samples[index]` -/
def rawSample (view : WaveQueryView α) (index : ℕ) : WaveSample α :=
  view.channel.samples.getD index default

def time (view : WaveQueryView α) (index : ℕ) : α :=
  match view.axis with
  | .scriptTime => (view.rawSample index).time
  | .sampleFrequency =>
    let global := ofSize (view.channel.sampleIndexOffset + index)
    if lt zero view.frequency then div global view.frequency else global
  | .sampleIndex => ofSize (view.channel.sampleIndexOffset + index)

def actual (view : WaveQueryView α) (index : ℕ) : α :=
  mul (view.rawSample index).value view.channel.ratio

def sample (view : WaveQueryView α) (index : ℕ) : WaveSample α where
  time := view.time index
  value :=
    match view.formula with
    | .offsetThenScale => mul (add (view.actual index) view.channel.offset) view.channel.scale
    | .scaleThenOffset => add (mul (view.actual index) view.channel.scale) view.channel.offset

/-! ### Ranges -/

/-- The first sample that is not before `t`, or with `upper` the first one after it. -/
def bound (view : WaveQueryView α) (t : α) (upper : Bool) : ℕ :=
  PartitionPoint.search (fun mid => lt (view.time mid) t || (upper && eq (view.time mid) t))
    view.size 0 view.size

/-- The two times of a range in their order. -/
def ordered (minTime maxTime : α) : α × α :=
  if lt maxTime minTime then (maxTime, minTime) else (minTime, maxTime)

def range (view : WaveQueryView α) (minTime maxTime : α) (guards : Bool) : ℕ × ℕ :=
  let begin := view.bound (ordered minTime maxTime).1 false
  let fin := view.bound (ordered minTime maxTime).2 true
  (if guards && decide (0 < begin) then begin - 1 else begin,
    if guards && decide (fin < view.size) then fin + 1 else fin)

def summary (view : WaveQueryView α) (begin fin : ℕ) : WaveSummary α :=
  match view.channel.summaryIndex with
  | some index =>
    (index.query view.channel.samples view.channel.sampleIndexOffset begin fin {}).1
  | none =>
    let begin := min begin view.size
    let fin := max begin (min fin view.size)
    scan view.channel.samples view.channel.sampleIndexOffset
      (begin + view.channel.sampleIndexOffset) (fin + view.channel.sampleIndexOffset)

/-! ### Uniform buckets -/

/-- `std::ranges::sort` of indices -/
def sorted (indices : List ℕ) : List ℕ := indices.insertionSort (· ≤ ·)

/-- `push_back` unless it repeats the last index. -/
def pushDistinct (result : List ℕ) (index : ℕ) : List ℕ :=
  if result.getLast? = some index then result else result ++ [index]

/-- One bucket; the state is where the bucket starts and the indices found so far. -/
def legacyBucket (view : WaveQueryView α) (minTime maxTime : α) (fin buckets : ℕ)
    (state : ℕ × List ℕ) (bucket : ℕ) : ℕ × List ℕ :=
  let left := state.1
  let right :=
    if bucket + 1 < buckets then
      let t := add minTime
        (div (mul (sub maxTime minTime) (ofSize (bucket + 1))) (ofSize buckets))
      clampIndex (view.range t t false).1 left fin
    else fin
  let s := view.summary left right
  (right,
    if s.count = 0 then state.2
    else
      ((sorted [s.first, s.minimum, s.maximum, s.last]).map
        (· - view.channel.sampleIndexOffset)).foldl pushDistinct state.2)

def legacyUniformIndices (view : WaveQueryView α) (minTime maxTime : α) (begin fin budget : ℕ) :
    List ℕ :=
  if budget < 4 then
    if 1 < budget then [begin, fin - 1] else [begin]
  else
    let buckets := budget / 4
    ((List.range buckets).foldl (view.legacyBucket minTime maxTime fin buckets) (begin, [])).2

/-! ### Stable buckets -/

def addLocal (view : WaveQueryView α) (result : List ℕ) (index : ℕ) : List ℕ :=
  if index < view.size ∧ index ∉ result then result ++ [index] else result

/-- The indices in order, without those that are not after the last one taken. -/
def appendSorted (view : WaveQueryView α) (result indices : List ℕ) : List ℕ :=
  (sorted indices).foldl
    (fun result index =>
      if view.size ≤ index then result
      else
        match result.getLast? with
        | none => [index]
        | some last => if last < index then result ++ [index] else result)
    result

def addSummary (view : WaveQueryView α) (result : List ℕ) (s : WaveSummary α) : List ℕ :=
  if s.count = 0 then result
  else
    view.appendSorted result
      ([s.first, s.last, s.minimum, s.maximum,
        if lt zero s.rise then s.riseBefore else s.first,
        if lt zero s.rise then s.riseBefore + 1 else s.first,
        if lt zero s.fall then s.fallBefore else s.first,
        if lt zero s.fall then s.fallBefore + 1 else s.first].map
          (· - view.channel.sampleIndexOffset))

/-- The bucket of the newest sample may still grow: its first sample stays, and of the
others only the last seven are taken. -/
def addLatestTail (view : WaveQueryView α) (result : List ℕ) (bucketBegin : ℕ) : List ℕ :=
  let latest := view.size - 1
  let tailBegin := max bucketBegin (if 6 < latest then latest - 6 else 0)
  let tail := List.range' tailBegin (latest + 1 - tailBegin)
  view.appendSorted result
    (bucketBegin :: tail ++ List.replicate (7 - tail.length) latest)

def finish (budget : ℕ) (result : List ℕ) : List ℕ :=
  (sorted result).dedup.take budget

/-- The order of the two jumps: the stronger first, of two equal ones the earlier. -/
def jumpBefore (a b : α × ℕ) : Bool :=
  if eq a.1 b.1 then decide (a.2 < b.2) else lt b.1 a.1

/-- The two samples of a jump, if both still fit. -/
def addJump (view : WaveQueryView α) (budget : ℕ) (result : List ℕ) (jump : α × ℕ) : List ℕ :=
  if lt zero jump.1 then
    let first := jump.2 - view.channel.sampleIndexOffset
    let extra := (if first ∈ result then 0 else 1) + (if first + 1 ∈ result then 0 else 1)
    if result.length + extra ≤ budget then
      view.addLocal (view.addLocal result first)
        (jump.2 + 1 - view.channel.sampleIndexOffset)
    else result
  else result

def addWithin (view : WaveQueryView α) (budget : ℕ) (result : List ℕ) (global : ℕ) : List ℕ :=
  if result.length < budget then
    view.addLocal result (global - view.channel.sampleIndexOffset)
  else result

/-- A small budget: the ends, the tail, the strongest jumps and the extreme values. -/
def smallBudgetIndices (view : WaveQueryView α) (viewportBegin viewportEnd begin fin budget : ℕ)
    (latestInViewport : Bool) : List ℕ :=
  let result := view.addLocal [] begin
  let result :=
    if latestInViewport && decide (9 ≤ budget) then view.addLatestTail result viewportBegin
    else if 1 < budget then view.addLocal result (fin - 1)
    else result
  let s := view.summary viewportBegin viewportEnd
  let rise := (s.rise, s.riseBefore)
  let fall := (s.fall, s.fallBefore)
  let jumps := if jumpBefore fall rise then [fall, rise] else [rise, fall]
  let result := jumps.foldl (view.addJump budget) result
  finish budget ([s.minimum, s.maximum].foldl (view.addWithin budget) result)

/-- The width of the buckets: the power of two not below the requested width. -/
def bucketWidth (minTime maxTime : α) (buckets : ℕ) : α :=
  let requestedWidth := div (sub maxTime minTime) (ofSize (buckets - 1))
  let width := exp2CeilLog2 requestedWidth
  if lt width requestedWidth then mul width (ofSize 2) else width

/-- Where bucket `bucket` ends: the buckets are anchored at the origin of the time axis. -/
def boundary (minTime width : α) (bucket : ℕ) : α :=
  mul (add (floor (div minTime width)) (ofSize (bucket + 1))) width

/-- One bucket; the state is where the bucket starts and the indices found so far. -/
def stableBucket (view : WaveQueryView α) (minTime width : α)
    (viewportBegin viewportEnd buckets : ℕ) (state : ℕ × List ℕ) (bucket : ℕ) : ℕ × List ℕ :=
  let left := state.1
  let latest := view.size - 1
  if viewportEnd ≤ left then state
  else
    let right :=
      if bucket + 1 < buckets then
        let t := boundary minTime width bucket
        clampIndex (view.range t t false).1 left viewportEnd
      else viewportEnd
    if right = left then state
    else if viewportBegin ≤ latest ∧ latest < viewportEnd ∧ left ≤ latest ∧ latest < right then
      (right, view.addLatestTail state.2 left)
    else
      -- the left neighbour belongs to the pair across the border of the bucket
      (right, view.addSummary state.2
        (view.summary (if viewportBegin < left then left - 1 else left) right))

def stableEdgeIndices (view : WaveQueryView α) (minTime maxTime : α) (begin fin budget : ℕ) :
    List ℕ :=
  let viewportBegin := (view.range minTime maxTime false).1
  let viewportEnd := (view.range minTime maxTime false).2
  let latest := view.size - 1
  let latestInViewport := decide (viewportBegin ≤ latest) && decide (latest < viewportEnd)
  if viewportBegin = viewportEnd then []
  else if budget < 18 then
    view.smallBudgetIndices viewportBegin viewportEnd begin fin budget latestInViewport
  else
    let result := if begin < viewportBegin then view.addLocal [] begin else []
    let buckets := (budget - 2) / 8
    let width := bucketWidth minTime maxTime buckets
    let result :=
      if lt zero width && isFinite width then
        ((List.range buckets).foldl
          (view.stableBucket minTime width viewportBegin viewportEnd buckets)
          (viewportBegin, result)).2
      else
        let result := view.addSummary result (view.summary viewportBegin viewportEnd)
        if latestInViewport then view.addLocal result latest else result
    finish budget (if viewportEnd < fin then view.addLocal result viewportEnd else result)

def traceIndices (view : WaveQueryView α) (minTime maxTime : α) (budget : ℕ) (guards : Bool)
    (mode : WaveDownsampleMode) : List ℕ :=
  let minTime' := (ordered minTime maxTime).1
  let maxTime' := (ordered minTime maxTime).2
  let begin := (view.range minTime' maxTime' guards).1
  let fin := (view.range minTime' maxTime' guards).2
  if begin = fin ∨ budget = 0 then []
  -- a difference below zero wraps around and is above every budget
  else if begin ≤ fin ∧ fin - begin ≤ budget then List.range' begin (fin - begin)
  else
    match mode with
    | .legacyUniform => view.legacyUniformIndices minTime' maxTime' begin fin budget
    | .stableEdges => view.stableEdgeIndices minTime' maxTime' begin fin budget

/-! ### Edges and crossings -/

/-- `(waveRawBits(channel_.samples[i].value) & mask) != 0` -/
def bitState (view : WaveQueryView α) (bit : Fin 64) (i : ℕ) : Bool :=
  waveRawBits (view.rawSample i).value &&& (1 : UInt64) <<< UInt64.ofNat bit ≠ 0

/-- `((s.bitsAnd ^ s.bitsOr) & mask) == 0` -/
def constantBit (bit : Fin 64) (s : WaveSummary α) : Bool :=
  (s.bitsAnd ^^^ s.bitsOr) &&& (1 : UInt64) <<< UInt64.ofNat bit = 0

/-- The search of `bitEdge`; a range is halved until it is a leaf. -/
def searchEdge (view : WaveQueryView α) (bit : Fin 64) (state reverse : Bool) :
    ℕ → ℕ → ℕ → Option ℕ
  | 0, _, _ => none
  | fuel + 1, left, right =>
    if right ≤ left then none
    else if constantBit bit (view.summary (left - 1) right) then none
    else if blockSize < right - left then
      let mid := left + (right - left) / 2
      match if reverse then view.searchEdge bit state reverse fuel mid right
          else view.searchEdge bit state reverse fuel left mid with
      | some hit => some hit
      | none =>
        if reverse then view.searchEdge bit state reverse fuel left mid
        else view.searchEdge bit state reverse fuel mid right
    else
      let indices := List.range' left (right - left)
      (if reverse then indices.reverse else indices).find? fun i =>
        view.bitState bit i != view.bitState bit (i - 1) && view.bitState bit i == state

def bitEdge (view : WaveQueryView α) (minTime maxTime : α) (bit : ℕ) (state reverse : Bool) :
    Option ℕ :=
  if h : bit < 64 then
    if view.size < 2 then none
    else
      let begin := max 1 (view.range minTime maxTime false).1
      let fin := (view.range minTime maxTime false).2
      view.searchEdge ⟨bit, h⟩ state reverse (fin - begin) begin fin
  else none

/-- Where the line from the sample before `i` to sample `i` crosses the threshold inside the
window. -/
def crossingAt (view : WaveQueryView α) (minTime maxTime threshold : α) (rising : Bool) (i : ℕ) :
    Option α :=
  let previous := view.sample (i - 1)
  let current := view.sample i
  let crosses :=
    if rising then lt previous.value threshold && le threshold current.value
    else lt threshold previous.value && le current.value threshold
  if !crosses || eq current.value previous.value then none
  else
    let t := add previous.time
      (div (mul (sub threshold previous.value) (sub current.time previous.time))
        (sub current.value previous.value))
    if le minTime t && le t maxTime then some t else none

/-- The search of `firstCrossing`. -/
def searchCrossing (view : WaveQueryView α) (minTime maxTime threshold : α) (rising : Bool) :
    ℕ → ℕ → ℕ → Option α
  | 0, _, _ => none
  | fuel + 1, left, right =>
    if right ≤ left then none
    else
      let s := view.summary (left - 1) right
      let a := (view.sample (s.minimum - view.channel.sampleIndexOffset)).value
      let b := (view.sample (s.maximum - view.channel.sampleIndexOffset)).value
      if lt threshold (if lt b a then b else a) || lt (if lt a b then b else a) threshold ||
          eq a b then none
      else if blockSize < right - left then
        let mid := left + (right - left) / 2
        match view.searchCrossing minTime maxTime threshold rising fuel left mid with
        | some hit => some hit
        | none => view.searchCrossing minTime maxTime threshold rising fuel mid right
      else
        (List.range' left (right - left)).findSome?
          (view.crossingAt minTime maxTime threshold rising)

def firstCrossing (view : WaveQueryView α) (minTime maxTime threshold : α) (rising : Bool) :
    Option α :=
  if !isFinite threshold || decide (view.size < 2) then none
  else
    let begin := max (view.range minTime maxTime true).1 1
    let fin := (view.range minTime maxTime true).2
    view.searchCrossing minTime maxTime threshold rising (fin - begin) begin fin

/-! ### Digital segments -/

/-- The loop over a leaf of `findEdges`: the edges so far and whether they stayed within the
limit. -/
def collectEdges (view : WaveQueryView α) (bit : Fin 64) (limit : ℕ) :
    List ℕ → List ℕ → Bool × List ℕ
  | [], edges => (true, edges)
  | i :: indices, edges =>
    if view.bitState bit i != view.bitState bit (i - 1) then
      if edges.length = limit then (false, edges)
      else view.collectEdges bit limit indices (edges ++ [i])
    else view.collectEdges bit limit indices edges

def findEdges (view : WaveQueryView α) (bit : Fin 64) (limit : ℕ) :
    ℕ → ℕ → ℕ → List ℕ → Bool × List ℕ
  | 0, _, _, edges => (true, edges)
  | fuel + 1, left, right, edges =>
    if right ≤ left then (true, edges)
    else if constantBit bit (view.summary (left - 1) right) then (true, edges)
    else if right - left ≤ blockSize then
      view.collectEdges bit limit (List.range' left (right - left)) edges
    else
      let mid := left + (right - left) / 2
      match view.findEdges bit limit fuel left mid edges with
      | (true, edges) => view.findEdges bit limit fuel mid right edges
      | (false, edges) => (false, edges)

/-- `append`: a constant segment prolongs a constant one of the same state. -/
def appendSegment (result : List (WaveDigitalSegment α)) (segment : WaveDigitalSegment α) :
    List (WaveDigitalSegment α) :=
  match result.getLast? with
  | some last =>
    if !segment.activity && !last.activity && segment.firstState == segment.lastState &&
        last.firstState == segment.firstState && last.lastState == segment.firstState &&
        eq last.endTime segment.beginTime then
      result.dropLast ++ [{ last with endTime := segment.endTime }]
    else result ++ [segment]
  | none => result ++ [segment]

/-- The pixel a sample falls into. -/
def pixel (view : WaveQueryView α) (minTime pixelTime : α) (i : ℕ) : α :=
  floor (div (sub (view.time i) minTime) (if lt pixelTime tiny then tiny else pixelTime))

/-- The loop of `emitExact` over the edges that are left, those of one pixel at a time. -/
def emitEdges (view : WaveQueryView α) (bit : Fin 64) (minTime pixelTime : α) :
    ℕ → List ℕ → α → Bool → List (WaveDigitalSegment α) → α × Bool × List (WaveDigitalSegment α)
  | 0, _, t, current, result => (t, current, result)
  | _ + 1, [], t, current, result => (t, current, result)
  | fuel + 1, first :: edges, t, current, result =>
    let same := fun i => eq (view.pixel minTime pixelTime i) (view.pixel minTime pixelTime first)
    let last := (edges.takeWhile same).getLastD first
    let edgeTime := view.time first
    let result :=
      if lt t edgeTime then appendSegment result ⟨t, edgeTime, current, current, false⟩ else result
    let next := view.bitState bit last
    let result :=
      appendSegment result ⟨edgeTime, view.time last, current, next, last != first⟩
    view.emitEdges bit minTime pixelTime fuel (edges.dropWhile same) (view.time last) next result

def emitExact (view : WaveQueryView α) (bit : Fin 64) (minTime pixelTime : α) (edges : List ℕ)
    (left right : α) (initial : Bool) (result : List (WaveDigitalSegment α)) :
    List (WaveDigitalSegment α) :=
  match view.emitEdges bit minTime pixelTime edges.length edges left initial result with
  | (t, current, result) =>
    if lt t right || result.isEmpty then
      appendSegment result ⟨t, right, current, current, false⟩
    else result

/-- One bucket where there are too many edges to draw; the state is where the bucket starts
and the segments so far. -/
def digitalBucket (view : WaveQueryView α) (bit : Fin 64) (minTime pixelTime start maxTime : α)
    (fin budget buckets : ℕ) (state : ℕ × List (WaveDigitalSegment α)) (b : ℕ) :
    ℕ × List (WaveDigitalSegment α) :=
  let left := state.1
  let at_ := fun n => add start (div (mul (sub maxTime start) (ofSize n)) (ofSize buckets))
  let t0 := at_ b
  let t1 := at_ (b + 1)
  let right :=
    if b + 1 = buckets then fin else clampIndex (view.range t1 t1 false).1 (left + 1) fin
  let initial := view.bitState bit left
  let found := view.findEdges bit 1 (right - (left + 1)) (left + 1) right []
  (right - 1,
    if decide (3 ≤ budget) && found.1 then
      view.emitExact bit minTime pixelTime found.2 t0 t1 initial state.2
    else
      appendSegment state.2
        ⟨t0, t1, initial, view.bitState bit (right - 1),
          !constantBit bit (view.summary left right)⟩)

def digitalSegments (view : WaveQueryView α) (minTime maxTime : α) (bit budget pixelWidth : ℕ) :
    List (WaveDigitalSegment α) :=
  if h : bit < 64 then
    if view.size = 0 ∨ budget = 0 then []
    else
      let minTime' := (ordered minTime maxTime).1
      let maxTime' := (ordered minTime maxTime).2
      let begin := (view.range minTime' maxTime' false).1 - 1
      let fin := (view.range minTime' maxTime' false).2
      if fin ≤ begin then []
      else
        let bit : Fin 64 := ⟨bit, h⟩
        let start := if lt minTime' (view.time begin) then view.time begin else minTime'
        let pixelTime := div (sub maxTime' minTime') (ofSize (max pixelWidth 1))
        let found := view.findEdges bit ((budget - 1) / 2) (fin - (begin + 1)) (begin + 1) fin []
        if found.1 then
          view.emitExact bit minTime' pixelTime found.2 start maxTime' (view.bitState bit begin) []
        else
          let buckets := max 1 (budget / 3)
          ((List.range buckets).foldl
            (view.digitalBucket bit minTime' pixelTime start maxTime' fin budget buckets)
            (begin, [])).2
  else []

end WaveQueryView

end ProtoScope.Plot
