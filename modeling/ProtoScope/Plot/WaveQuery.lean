/-
The summary index of a waveform channel.

A channel keeps a window of its samples.  The index holds, level by level, a summary of
every block of 256, 512, 1024, ... samples, the blocks being aligned to the global sample
index and not to the window.  `synchronize` follows the window as it slides and rebuilds
only the first block and those the new samples touch; `query` walks a range with the
largest aligned blocks it can find and reads single samples at the two ends.

The scalar type is a parameter: the program computes with doubles, and the same code over
exact numbers is what the statements about exact arithmetic speak of.
-/
import ProtoScope.Library.FloatOrder

namespace ProtoScope.Plot

/-- The operations the plot code uses on sample times and values. -/
class WaveScalar (α : Type) where
  zero : α
  sub : α → α → α
  neg : α → α
  lt : α → α → Bool
  le : α → α → Bool
  eq : α → α → Bool
  isFinite : α → Bool
  /-- `static_cast<double>(std::numeric_limits<std::uint64_t>::max())` -/
  uint64Max : α
  toUInt64 : α → UInt64

instance : WaveScalar Float where
  zero := Float.ofBits 0
  sub := Float.sub
  neg := Float.neg
  lt := Float.lt
  le := Float.le
  eq := Float.beq
  isFinite := Float.isFinite
  uint64Max := UInt64.toFloat (UInt64.ofNat (2 ^ 64 - 1))
  toUInt64 := Float.toUInt64

structure WaveSample (α : Type) where
  time : α
  value : α
deriving DecidableEq, Repr

structure WaveSummary (α : Type) where
  count : ℕ
  first : ℕ
  last : ℕ
  minimum : ℕ
  maximum : ℕ
  minValue : α
  maxValue : α
  firstBits : UInt64
  lastBits : UInt64
  bitsAnd : UInt64
  bitsOr : UInt64
  firstTime : α
  lastTime : α
  minStep : α
  timeIncreasing : Bool
  finiteCount : ℕ
  firstValue : α
  lastValue : α
  rise : α
  fall : α
  riseBefore : ℕ
  fallBefore : ℕ
deriving DecidableEq, Repr

structure WaveQueryCounters where
  rawSamples : ℕ := 0
  summaryHits : ℕ := 0
deriving DecidableEq, Repr

section Scalar

variable {α : Type} [WaveScalar α]

open WaveScalar

instance : Inhabited (WaveSample α) := ⟨⟨zero, zero⟩⟩

/-- A value-initialised `WaveSummary`. -/
def WaveSummary.empty : WaveSummary α where
  count := 0
  first := 0
  last := 0
  minimum := 0
  maximum := 0
  minValue := zero
  maxValue := zero
  firstBits := 0
  lastBits := 0
  bitsAnd := 0
  bitsOr := 0
  firstTime := zero
  lastTime := zero
  minStep := zero
  timeIncreasing := false
  finiteCount := 0
  firstValue := zero
  lastValue := zero
  rise := zero
  fall := zero
  riseBefore := 0
  fallBefore := 0

def waveRawBits (value : α) : UInt64 :=
  if !isFinite value || le value zero then 0
  else if le uint64Max value then UInt64.ofNat (2 ^ 64 - 1)
  else toUInt64 value

/-! ### Merging and scanning -/

/-- The stronger of two jumps; of two equally strong ones the earlier. -/
def keep (strength : α) (before : ℕ) (best : α × ℕ) : α × ℕ :=
  if lt best.1 strength || (lt zero strength && eq strength best.1 && decide (before < best.2)) then
    (strength, before)
  else
    best

/-- The smaller of two time steps, zero standing for no step. -/
def keepStep (step minStep : α) : α :=
  if lt zero step && (eq minStep zero || lt step minStep) then step else minStep

/-- Whether the extreme value `b` of a later range replaces `a`; only finite values do. -/
def replaces (better : α → α → Bool) (b a : α) : Bool :=
  (better b a || !isFinite a) && isFinite b

def replacesMinimum : α → α → Bool := replaces fun b a => lt b a

def replacesMaximum : α → α → Bool := replaces fun b a => lt a b

def merge (a b : WaveSummary α) : WaveSummary α :=
  if a.count = 0 then b
  else if b.count = 0 then a
  else
    let rise := keep b.rise b.riseBefore (a.rise, a.riseBefore)
    let fall := keep b.fall b.fallBefore (a.fall, a.fallBefore)
    -- the jump across the border of the two ranges
    let adjacent := isFinite a.lastValue && isFinite b.firstValue && a.last + 1 == b.first
    let delta := sub b.firstValue a.lastValue
    let rise := if adjacent then keep delta a.last rise else rise
    let fall := if adjacent then keep (neg delta) a.last fall else fall
    let step := sub b.firstTime a.lastTime
    let lower := replacesMinimum b.minValue a.minValue
    let higher := replacesMaximum b.maxValue a.maxValue
    { a with
      rise := rise.1
      riseBefore := rise.2
      fall := fall.1
      fallBefore := fall.2
      lastValue := b.lastValue
      timeIncreasing := a.timeIncreasing && b.timeIncreasing && lt zero step
      minStep := keepStep b.minStep (keepStep step a.minStep)
      lastTime := b.lastTime
      count := a.count + b.count
      finiteCount := a.finiteCount + b.finiteCount
      last := b.last
      lastBits := b.lastBits
      minValue := if lower then b.minValue else a.minValue
      minimum := if lower then b.minimum else a.minimum
      maxValue := if higher then b.maxValue else a.maxValue
      maximum := if higher then b.maximum else a.maximum
      bitsAnd := a.bitsAnd &&& b.bitsAnd
      bitsOr := a.bitsOr ||| b.bitsOr }

/-- The summary of the one sample at the global index `i`. -/
def WaveSummary.single (i : ℕ) (sample : WaveSample α) : WaveSummary α :=
  let bits := waveRawBits sample.value
  { WaveSummary.empty with
    count := 1
    first := i
    last := i
    minimum := i
    maximum := i
    minValue := sample.value
    maxValue := sample.value
    firstBits := bits
    lastBits := bits
    bitsAnd := bits
    bitsOr := bits
    firstTime := sample.time
    lastTime := sample.time
    minStep := zero
    timeIncreasing := isFinite sample.time
    finiteCount := if isFinite sample.value then 1 else 0
    firstValue := sample.value
    lastValue := sample.value }

/-- `samples[i - offset]` for a global index `i` of the window. -/
def sampleAt (samples : List (WaveSample α)) (offset i : ℕ) : WaveSample α :=
  samples.getD (i - offset) default

def scan (samples : List (WaveSample α)) (offset begin fin : ℕ) : WaveSummary α :=
  (List.range' begin (fin - begin)).foldl
    (fun result i => merge result (WaveSummary.single i (sampleAt samples offset i)))
    WaveSummary.empty

/-! ### The index -/

/-- Per bit, the number of transitions inside a block. -/
abbrev BitCounts := Vector ℕ 64

structure Level (α : Type) where
  firstBlock : ℕ := 0
  blocks : List (WaveSummary α) := []
  transitions : Option (List BitCounts) := none
deriving DecidableEq, Repr

def blockSize : ℕ := 256

structure WaveSummaryIndex (α : Type) where
  levels_ : List (Level α) := []
  begin_ : ℕ := 0
  end_ : ℕ := 0
  digital_ : Bool := false
deriving DecidableEq, Repr

def WaveSummaryIndex.clear (index : WaveSummaryIndex α) : WaveSummaryIndex α :=
  { index with levels_ := [], begin_ := 0, end_ := 0 }

/-- The block with the global number `id`, if the level holds it. -/
def Level.block? (level : Level α) (id : ℕ) : Option (WaveSummary α) :=
  if level.firstBlock ≤ id then level.blocks[id - level.firstBlock]? else none

/-- The loop over the set bits of `changed`. -/
def addBoundary (changed : UInt64) (counts : BitCounts) : BitCounts :=
  Vector.ofFn fun bit =>
    counts[bit] + if (changed >>> UInt64.ofNat bit) &&& 1 = 1 then 1 else 0

/-- What `rebuild` of one level reads: the samples, or the level below. -/
structure RebuildSource (α : Type) where
  samples : List (WaveSample α)
  offset : ℕ
  newEnd : ℕ
  width : ℕ
  child : Option (Level α)

namespace RebuildSource

def summary (source : RebuildSource α) (block : ℕ) : WaveSummary α :=
  match source.child with
  | none =>
    scan source.samples source.offset (max source.offset (block * source.width))
      (min source.newEnd ((block + 1) * source.width))
  | some child =>
    [block * 2, block * 2 + 1].foldl
      (fun result id =>
        match child.block? id with
        | some summary => merge result summary
        | none => result)
      WaveSummary.empty

def counts (source : RebuildSource α) (block : ℕ) : BitCounts :=
  match source.child with
  | none =>
    let begin := max source.offset (block * source.width)
    let fin := min source.newEnd ((block + 1) * source.width)
    (List.range' (begin + 1) (fin - (begin + 1))).foldl
      (fun counts i =>
        addBoundary
          (waveRawBits (sampleAt source.samples source.offset (i - 1)).value ^^^
            waveRawBits (sampleAt source.samples source.offset i).value)
          counts)
      (Vector.replicate 64 0)
  | some child =>
    -- the inner transitions of both children and the one across their border
    ([block * 2, block * 2 + 1].foldl
      (fun (state : BitCounts × Option (WaveSummary α)) id =>
        match child.block? id with
        | none => state
        | some summary =>
          let inner := ((child.transitions.getD []).getD (id - child.firstBlock)
            (Vector.replicate 64 0))
          let counts := Vector.zipWith (· + ·) state.1 inner
          match state.2 with
          | some previous => (addBoundary (previous.lastBits ^^^ summary.firstBits) counts, some summary)
          | none => (counts, some summary))
      (Vector.replicate 64 0, none)).1

end RebuildSource

namespace Level

/-- Drops the blocks before `first`. -/
def popBefore (digital : Bool) (first : ℕ) : ℕ → List (WaveSummary α) →
    Option (List BitCounts) → Level α
  | firstBlock, [], transitions => ⟨firstBlock, [], transitions⟩
  | firstBlock, block :: blocks, transitions =>
    if firstBlock < first then
      popBefore digital first (firstBlock + 1) blocks
        (if digital then transitions.map List.tail else transitions)
    else
      ⟨firstBlock, block :: blocks, transitions⟩

/-- `resize` of a container, new places value-initialised. -/
def resized {β : Type} (size : ℕ) (fill : β) (items : List β) : List β :=
  items.take size ++ List.replicate (size - items.length) fill

def rebuild (digital : Bool) (source : RebuildSource α) (first : ℕ) (level : Level α)
    (block : ℕ) : Level α :=
  { level with
    blocks := level.blocks.set (block - first) (source.summary block)
    transitions :=
      if digital then level.transitions.map (·.set (block - first) (source.counts block))
      else level.transitions }

/-- One level follows the window `[source.offset, source.newEnd)`. -/
def synchronize (digital : Bool) (oldEnd : ℕ) (source : RebuildSource α) (level : Level α) :
    Level α :=
  let first := source.offset / source.width
  let last := (source.newEnd - 1) / source.width
  let level := popBefore digital first level.firstBlock level.blocks level.transitions
  let level :=
    { firstBlock := if level.blocks.isEmpty then first else level.firstBlock
      blocks := resized (last - first + 1) WaveSummary.empty level.blocks
      transitions :=
        if digital then
          some (resized (last - first + 1) (Vector.replicate 64 0) (level.transitions.getD []))
        else level.transitions }
  -- the front changed by trimming, the tail by appending; full blocks between are reused
  let tail := max (first + 1) (oldEnd / source.width)
  (List.range' tail (last + 1 - tail)).foldl (rebuild digital source first)
    (rebuild digital source first level first)

end Level

namespace WaveSummaryIndex

/-- The loop of `synchronize` over the levels, each twice as wide as the one below; it
ends at the first level with a single block, and `fuel` bounds the number of levels. -/
def synchronizeLevels (digital : Bool) (samples : List (WaveSample α)) (offset newEnd oldEnd : ℕ) :
    ℕ → ℕ → Option (Level α) → List (Level α) → List (Level α)
  | 0, _, _, _ => []
  | fuel + 1, width, child, levels =>
    let level := (levels.headD {}).synchronize digital oldEnd ⟨samples, offset, newEnd, width, child⟩
    if offset / width = (newEnd - 1) / width then
      [level]
    else
      level :: synchronizeLevels digital samples offset newEnd oldEnd fuel (width * 2) (some level)
        levels.tail

/-- The index follows the window; one that does not continue the old one starts afresh. -/
def follow (index : WaveSummaryIndex α) (samples : List (WaveSample α)) (offset : ℕ) :
    WaveSummaryIndex α :=
  if samples.isEmpty then
    index.clear
  else
    let newEnd := offset + samples.length
    let index :=
      if offset < index.begin_ ∨ newEnd < index.end_ ∨ index.end_ ≤ offset then index.clear
      else index
    { index with
      begin_ := offset
      end_ := newEnd
      levels_ :=
        synchronizeLevels index.digital_ samples offset newEnd index.end_ (newEnd + 1) blockSize none
          index.levels_ }

def synchronize (index : WaveSummaryIndex α) (samples : List (WaveSample α)) (offset : ℕ)
    (digital : Bool) : WaveSummaryIndex α :=
  let index := if index.digital_ = digital then index else index.clear
  { index with digital_ := digital }.follow samples offset

/-- The widest aligned full block that starts at `begin` and fits before `fin`, with its
width; the levels are tried in order and the walk stops at the first that does not fit. -/
def selectBlock (begin fin : ℕ) : ℕ → List (Level α) → Option (ℕ × WaveSummary α) →
    Option (ℕ × WaveSummary α)
  | _, [], selected => selected
  | width, level :: levels, selected =>
    if begin % width ≠ 0 ∨ fin - begin < width then
      selected
    else
      let selected :=
        match level.block? (begin / width) with
        | some summary => if summary.count = width then some (width, summary) else selected
        | none => selected
      selectBlock begin fin (width * 2) levels selected

def queryLoop (levels : List (Level α)) (samples : List (WaveSample α)) (offset fin : ℕ) :
    ℕ → ℕ → WaveSummary α → WaveQueryCounters → WaveSummary α × WaveQueryCounters
  | 0, _, result, counters => (result, counters)
  | fuel + 1, begin, result, counters =>
    if begin < fin then
      match selectBlock begin fin blockSize levels none with
      | some (width, summary) =>
        queryLoop levels samples offset fin fuel (begin + width) (merge result summary)
          { counters with summaryHits := counters.summaryHits + 1 }
      | none =>
        let next := min fin ((begin / blockSize + 1) * blockSize)
        queryLoop levels samples offset fin fuel next
          (merge result (scan samples offset begin next))
          { counters with rawSamples := counters.rawSamples + (next - begin) }
    else
      (result, counters)

/-- Each turn of the loop consumes at least one sample, which bounds their number. -/
def query (index : WaveSummaryIndex α) (samples : List (WaveSample α)) (offset begin fin : ℕ)
    (counters : WaveQueryCounters) : WaveSummary α × WaveQueryCounters :=
  let begin := min begin samples.length + offset
  let fin := min fin samples.length + offset
  queryLoop index.levels_ samples offset fin (fin - begin) begin WaveSummary.empty counters

/-! ### Transitions of one bit -/

/-- As `selectBlock`, with the level that holds the block instead of the block. -/
def selectLevel (begin fin : ℕ) : ℕ → List (Level α) → Option (ℕ × Level α) →
    Option (ℕ × Level α)
  | _, [], selected => selected
  | width, level :: levels, selected =>
    if begin % width ≠ 0 ∨ fin - begin < width then
      selected
    else
      let selected :=
        match level.block? (begin / width) with
        | some summary => if summary.count = width then some (width, level) else selected
        | none => selected
      selectLevel begin fin (width * 2) levels selected

/-- What the walk of `bitTransitions` carries; `previous` is the last value it has seen. -/
structure TransitionWalk where
  result : ℕ := 0
  previous : Option UInt64 := none
  counters : WaveQueryCounters := {}
deriving DecidableEq, Repr

/-- One more transition where the bit under the mask differs from the value before. -/
def TransitionWalk.joint (walk : TransitionWalk) (mask bits : UInt64) : ℕ :=
  match walk.previous with
  | some previous => if (previous ^^^ bits) &&& mask ≠ 0 then 1 else 0
  | none => 0

def transitionsLoop (index : WaveSummaryIndex α) (samples : List (WaveSample α)) (offset fin : ℕ)
    (bit : Fin 64) : ℕ → ℕ → TransitionWalk → TransitionWalk
  | 0, _, walk => walk
  | fuel + 1, begin, walk =>
    let mask := (1 : UInt64) <<< UInt64.ofNat bit
    if begin < fin then
      match if index.digital_ then selectLevel begin fin blockSize index.levels_ none else none with
      | some (width, level) =>
        let id := begin / width - level.firstBlock
        let summary := level.blocks.getD id WaveSummary.empty
        let inner := (level.transitions.getD []).getD id (Vector.replicate 64 0)
        transitionsLoop index samples offset fin bit fuel (begin + width)
          { result := walk.result + inner[bit] + walk.joint mask summary.firstBits
            previous := some summary.lastBits
            counters := { walk.counters with summaryHits := walk.counters.summaryHits + 1 } }
      | none =>
        let bits := waveRawBits (sampleAt samples offset begin).value
        transitionsLoop index samples offset fin bit fuel (begin + 1)
          { result := walk.result + walk.joint mask bits
            previous := some bits
            counters := { walk.counters with rawSamples := walk.counters.rawSamples + 1 } }
    else
      walk

def bitTransitions (index : WaveSummaryIndex α) (samples : List (WaveSample α))
    (offset begin fin bit : ℕ) (counters : WaveQueryCounters) : ℕ × WaveQueryCounters :=
  if h : bit < 64 then
    let begin := min begin samples.length + offset
    let fin := min fin samples.length + offset
    let walk := transitionsLoop index samples offset fin ⟨bit, h⟩ (fin - begin) begin
      ⟨0, none, counters⟩
    (walk.result, walk.counters)
  else
    (0, counters)

end WaveSummaryIndex

end Scalar

end ProtoScope.Plot
