/-
Bucketed queries on one channel.

A window is cut into buckets of equal width.  An envelope holds the least and the greatest displayed
value of every bucket that shows a sample, a digital bucket the first and the last word of bits and
which bits were both set and clear.  The borders are times; the samples of a bucket are those
between the positions where the binary search puts two borders, and no bucket begins before the end
of the one before it.
-/
import ProtoScope.Plot.WaveQueryView

namespace ProtoScope.Plot

structure WaveTimeEnvelope (α : Type) where
  beginTime : α
  endTime : α
  minValue : α
  maxValue : α
  sampleCount : ℕ
deriving DecidableEq, Repr

structure WaveDigitalBucket (α : Type) where
  beginTime : α
  endTime : α
  firstBits : UInt64
  lastBits : UInt64
  activity : UInt64
deriving DecidableEq, Repr

namespace WaveQueryView

variable {α : Type} [WaveArith α]

open WaveScalar WaveArith

/-- The border before bucket `bucket`. -/
def borderTime (minTime maxTime : α) (buckets bucket : ℕ) : α :=
  add minTime (div (mul (sub maxTime minTime) (ofSize bucket)) (ofSize buckets))

/-- Where bucket `bucket` ends if it begins at the position `left`. -/
def bucketFin (view : WaveQueryView α) (minTime maxTime : α) (fin buckets left bucket : ℕ) : ℕ :=
  if bucket + 1 = buckets then fin
  else
    let t := borderTime minTime maxTime buckets (bucket + 1)
    clampIndex (view.range t t false).1 left fin

/-- The bounds of what is shown between two positions, if anything is. -/
def envelopeOf (view : WaveQueryView α) (t0 t1 : α) (left right : ℕ) :
    Option (WaveTimeEnvelope α) :=
  let s := view.summary left right
  if s.finiteCount = 0 then none
  else
    let a := (view.sample (s.minimum - view.channel.sampleIndexOffset)).value
    let z := (view.sample (s.maximum - view.channel.sampleIndexOffset)).value
    if isFinite a && isFinite z then
      some ⟨t0, t1, if lt z a then z else a, if lt a z then z else a, s.count⟩
    else none

/-- One bucket; the state is where the bucket starts and the envelopes so far. -/
def envelopeBucket (view : WaveQueryView α) (minTime maxTime : α) (fin buckets : ℕ)
    (state : ℕ × List (WaveTimeEnvelope α)) (b : ℕ) : ℕ × List (WaveTimeEnvelope α) :=
  let left := state.1
  let t0 := borderTime minTime maxTime buckets b
  let t1 := borderTime minTime maxTime buckets (b + 1)
  let right := view.bucketFin minTime maxTime fin buckets left b
  (right, state.2 ++ (view.envelopeOf t0 t1 left right).toList)

def timeEnvelope (view : WaveQueryView α) (minTime maxTime : α) (buckets : ℕ) :
    List (WaveTimeEnvelope α) :=
  let minTime' := (ordered minTime maxTime).1
  let maxTime' := (ordered minTime maxTime).2
  let begin := (view.range minTime' maxTime' false).1
  let fin := (view.range minTime' maxTime' false).2
  if begin = fin ∨ buckets = 0 then []
  else
    ((List.range buckets).foldl (view.envelopeBucket minTime' maxTime' fin buckets) (begin, [])).2

/-- What a digital bucket says of the samples between two positions. -/
def digitalBucketOf (view : WaveQueryView α) (left right : ℕ) : Option (WaveDigitalBucket α) :=
  if left = right then none
  else
    let s := view.summary left right
    some ⟨view.time left, view.time (right - 1), s.firstBits, s.lastBits, s.bitsAnd ^^^ s.bitsOr⟩

/-- One bucket of `digitalBuckets`; the two times are not put in their order here. -/
def digitalGroup (view : WaveQueryView α) (minTime maxTime : α) (fin count : ℕ)
    (state : ℕ × List (WaveDigitalBucket α)) (b : ℕ) : ℕ × List (WaveDigitalBucket α) :=
  let left := state.1
  let right := view.bucketFin minTime maxTime fin count left b
  (right, state.2 ++ (view.digitalBucketOf left right).toList)

def digitalBuckets (view : WaveQueryView α) (minTime maxTime : α) (budget : ℕ) :
    List (WaveDigitalBucket α) :=
  let begin := (view.range minTime maxTime true).1
  let fin := (view.range minTime maxTime true).2
  if begin = fin ∨ budget = 0 then []
  else
    let count := min budget (fin - begin)
    ((List.range count).foldl (view.digitalGroup minTime maxTime fin count) (begin, [])).2

end WaveQueryView

end ProtoScope.Plot
