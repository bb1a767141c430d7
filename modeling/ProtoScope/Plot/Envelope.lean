/-
The envelope of a channel and the search for its nearest sample, in exact arithmetic.

`buildLimitedEnvelope` divides the visible window into as many buckets as there are pixels
and reduces the samples of each bucket to one point with their least and greatest display
value; few samples are points of their own.  `findNearest` and `findNearestByTime` look at
the samples around the position where the channel's times reach the queried one.

Numbers are those of any linearly ordered field.  All of them are finite, so the
replacement of infinite ratios, scales and offsets does not appear; the infinities that a
minimum and a maximum start with are the ends that are added to the order.
-/
import Mathlib.Algebra.Order.Field.Basic
import ProtoScope.Library.PartitionPoint
import ProtoScope.Plot.ChannelSpec
import ProtoScope.Plot.WaveQuery

namespace ProtoScope.Plot

open ProtoScope.Library

/-- What of a channel's specification decides how a value is displayed. -/
structure DisplaySpec (K : Type) where
  ratio : K
  scale : K
  offset : K

structure DisplayChannel (K : Type) where
  spec : DisplaySpec K
  samples : List (WaveSample K)

structure EnvelopePoint (K : Type) where
  time : K
  minValue : WithTop K
  maxValue : WithBot K
  sampleCount : ℕ

structure EnvelopeView (K : Type) where
  points : List (EnvelopePoint K) := []
  sourceSampleCount : ℕ := 0

structure CursorReadout (K : Type) where
  valid : Bool
  channelIndex : ℕ
  sampleIndex : ℕ
  time : K
  value : K
  displayValue : K
deriving DecidableEq

/-- The channels of an oscilloscope buffer as they are displayed. -/
structure DisplayBuffer (K : Type) where
  channels : List (DisplayChannel K)
  displayFormula : WaveDisplayFormula

section Display

variable {K : Type} [Field K]

def applyChannelActualValue (rawValue : K) (spec : DisplaySpec K) : K :=
  rawValue * spec.ratio

def applyChannelDisplayTransform (rawValue : K) (spec : DisplaySpec K)
    (formula : WaveDisplayFormula) : K :=
  match formula with
  | .scaleThenOffset => applyChannelActualValue rawValue spec * spec.scale + spec.offset
  | .offsetThenScale => (applyChannelActualValue rawValue spec + spec.offset) * spec.scale

end Display

section Search

variable {K : Type} [LinearOrder K]

def lowerBoundByTime (samples : List (WaveSample K)) (time : K) : ℕ :=
  PartitionPoint.find (fun sample => decide (sample.time < time)) samples

def upperBoundByTime (samples : List (WaveSample K)) (time : K) : ℕ :=
  PartitionPoint.find (fun sample => !decide (time < sample.time)) samples

/-- The samples of `[begin, end)` with their positions, around the queried time. -/
def samplesAround (samples : List (WaveSample K)) (time : K) (reach : ℕ) :
    List (WaveSample K × ℕ) :=
  let pivot := lowerBoundByTime samples time
  let first := if reach < pivot then pivot - reach else 0
  let last := min samples.length (pivot + reach)
  (samples.zipIdx.drop first).take (last - first)

end Search

variable {K : Type} [Field K] [LinearOrder K]

/-- `1e-12` -/
def kExactEpsilon : K := 1 / 10 ^ 12

/-! ### The envelope -/

/-- What is gathered of the samples of a bucket. -/
structure EnvelopeBucket (K : Type) where
  minValue : WithTop K := ⊤
  maxValue : WithBot K := ⊥
  timeAccumulator : K
  count : ℕ := 0

namespace EnvelopeBucket

def empty : EnvelopeBucket K where
  timeAccumulator := 0

def add (bucket : EnvelopeBucket K) (time displayValue : K) : EnvelopeBucket K where
  minValue := min bucket.minValue displayValue
  maxValue := max bucket.maxValue displayValue
  timeAccumulator := bucket.timeAccumulator + time
  count := bucket.count + 1

/-- The point of a bucket, which has none when no sample fell into it. -/
def point (bucket : EnvelopeBucket K) : List (EnvelopePoint K) :=
  if 0 < bucket.count then
    [{ time := bucket.timeAccumulator / bucket.count
       minValue := bucket.minValue
       maxValue := bucket.maxValue
       sampleCount := bucket.count }]
  else []

/-- One sample counted into a bucket when it lies between the borders. -/
def addWithin (display : K → K) (bucketStart bucketEnd : K) (bucket : EnvelopeBucket K)
    (sample : WaveSample K) : EnvelopeBucket K :=
  if bucketStart ≤ sample.time ∧ sample.time ≤ bucketEnd then
    bucket.add sample.time (display sample.value)
  else bucket

/-- The samples from the cursor on, read into a bucket; with it, those that are left. -/
def fill (display : K → K) (bucketStart bucketEnd : K) :
    EnvelopeBucket K → List (WaveSample K) → EnvelopeBucket K × List (WaveSample K)
  | bucket, [] => (bucket, [])
  | bucket, sample :: rest =>
    if bucketEnd < sample.time ∧ 0 < bucket.count then (bucket, sample :: rest)
    else if bucketEnd < sample.time then
      -- the cursor stays on a sample behind the border
      (addWithin display bucketStart bucketEnd bucket sample, sample :: rest)
    else
      fill display bucketStart bucketEnd (addWithin display bucketStart bucketEnd bucket sample)
        rest

end EnvelopeBucket

/-- The points of the buckets from `bucketIndex` on, while samples are left. -/
def bucketPoints (display : K → K) (visibleMinTime span : K) (bucketCount : ℕ) :
    ℕ → ℕ → List (WaveSample K) → List (EnvelopePoint K)
  | 0, _, _ => []
  | _ + 1, _, [] => []
  | buckets + 1, bucketIndex, sample :: rest =>
    let bucketStart := visibleMinTime + span * bucketIndex / bucketCount
    let bucketEnd := visibleMinTime + span * ((bucketIndex + 1 : ℕ) : K) / bucketCount
    let filled := EnvelopeBucket.fill display bucketStart bucketEnd .empty (sample :: rest)
    filled.1.point ++
      bucketPoints display visibleMinTime span bucketCount buckets (bucketIndex + 1) filled.2

def singlePoint (display : K → K) (sample : WaveSample K) : EnvelopePoint K where
  time := sample.time
  minValue := display sample.value
  maxValue := display sample.value
  sampleCount := 1

/-- The points of the samples that are taken into account: single ones where there are few. -/
def samplePoints (display : K → K) (visibleMinTime visibleMaxTime : K)
    (pixelWidth sampledCount : ℕ) (sampled : List (WaveSample K)) : List (EnvelopePoint K) :=
  if sampledCount ≤ pixelWidth * 2 then sampled.map (singlePoint display)
  else
    let bucketCount := max 1 pixelWidth
    let span := max (visibleMaxTime - visibleMinTime) kExactEpsilon
    let points := bucketPoints display visibleMinTime span bucketCount bucketCount 0 sampled
    if points.isEmpty then sampled.map (singlePoint display) else points

namespace DisplayBuffer

def display (buffer : DisplayBuffer K) (channel : DisplayChannel K) (rawValue : K) : K :=
  applyChannelDisplayTransform rawValue channel.spec buffer.displayFormula

/-- The envelope of a window whose ends are in order. -/
def channelEnvelope (buffer : DisplayBuffer K) (channel : DisplayChannel K)
    (visibleMinTime visibleMaxTime : K) (pixelWidth maxSamples : ℕ) : EnvelopeView K :=
  let lower := lowerBoundByTime channel.samples visibleMinTime
  let upper := upperBoundByTime channel.samples visibleMaxTime
  if upper ≤ lower then {}
  else
    let sourceSampleCount := upper - lower
    let first :=
      if 0 < maxSamples ∧ maxSamples < sourceSampleCount then upper - maxSamples else lower
    { points :=
        samplePoints (buffer.display channel) visibleMinTime visibleMaxTime pixelWidth
          (upper - first) ((channel.samples.drop first).take (upper - first))
      sourceSampleCount := sourceSampleCount }

def buildLimitedEnvelope (buffer : DisplayBuffer K) (channelIndex : ℕ)
    (visibleMinTime visibleMaxTime : K) (pixelWidth maxSamples : ℕ) : EnvelopeView K :=
  match buffer.channels[channelIndex]? with
  | none => {}
  | some channel =>
    if pixelWidth = 0 then {}
    else if channel.samples.isEmpty then {}
    else if visibleMaxTime < visibleMinTime then
      buffer.channelEnvelope channel visibleMaxTime visibleMinTime pixelWidth maxSamples
    else buffer.channelEnvelope channel visibleMinTime visibleMaxTime pixelWidth maxSamples

/-! ### The nearest sample -/

def readout (buffer : DisplayBuffer K) (channel : DisplayChannel K) (channelIndex : ℕ)
    (sampleIndex : ℕ) (sample : WaveSample K) : CursorReadout K where
  valid := true
  channelIndex := channelIndex
  sampleIndex := sampleIndex
  time := sample.time
  value := applyChannelActualValue sample.value channel.spec
  displayValue := buffer.display channel sample.value

/-- One round of the loop of `findNearest`: the best score and its readout. -/
def compareNearest (buffer : DisplayBuffer K) (channel : DisplayChannel K) (channelIndex : ℕ)
    (time value maxTimeDistance maxValueDistance : K)
    (best : WithTop K × Option (CursorReadout K)) (entry : WaveSample K × ℕ) :
    WithTop K × Option (CursorReadout K) :=
  let dt := |entry.1.time - time|
  let dv := |buffer.display channel entry.1.value - value|
  if maxTimeDistance < dt ∨ maxValueDistance < dv then best
  else if ((dt * dt + dv * dv : K) : WithTop K) < best.1 then
    (((dt * dt + dv * dv : K) : WithTop K),
      some (buffer.readout channel channelIndex entry.2 entry.1))
  else best

def findNearest (buffer : DisplayBuffer K) (channelIndex : ℕ)
    (time value maxTimeDistance maxValueDistance : K) : Option (CursorReadout K) :=
  match buffer.channels[channelIndex]? with
  | none => none
  | some channel =>
    if channel.samples.isEmpty then none
    else
      ((samplesAround channel.samples time 32).foldl
        (buffer.compareNearest channel channelIndex time value maxTimeDistance maxValueDistance)
        (⊤, none)).2

/-- One round of the loop of `findNearestByTime`. -/
def compareNearestByTime (buffer : DisplayBuffer K) (channel : DisplayChannel K)
    (channelIndex : ℕ) (time maxTimeDistance : K)
    (best : WithTop K × Option (CursorReadout K)) (entry : WaveSample K × ℕ) :
    WithTop K × Option (CursorReadout K) :=
  let dt := |entry.1.time - time|
  if maxTimeDistance < dt ∨ best.1 ≤ (dt : WithTop K) then best
  else ((dt : WithTop K), some (buffer.readout channel channelIndex entry.2 entry.1))

def findNearestByTime (buffer : DisplayBuffer K) (channelIndex : ℕ) (time maxTimeDistance : K) :
    Option (CursorReadout K) :=
  match buffer.channels[channelIndex]? with
  | none => none
  | some channel =>
    if channel.samples.isEmpty then none
    else
      ((samplesAround channel.samples time 16).foldl
        (buffer.compareNearestByTime channel channelIndex time maxTimeDistance) (⊤, none)).2

end DisplayBuffer

end ProtoScope.Plot
