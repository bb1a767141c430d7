/-
Fewer points for a window that shows many samples, in exact arithmetic.

Both functions cut the samples of the window out of those of a channel, with a neighbour on either
side, and split what they have evenly by position.  `buildDisplayEnvelope` reduces each part to one
point; `buildPeakDetectDownsample` keeps of each part its ends and its extremes.
-/
import ProtoScope.Library.Selection
import ProtoScope.Library.UniformBuckets
import ProtoScope.Plot.Envelope

namespace ProtoScope.Plot

open ProtoScope.Library

section Window

variable {K : Type} [LinearOrder K]

/-- The samples that are drawn for a window, and how many of them are inside of it. -/
def displayWindow (samples : List (WaveSample K)) (visibleMinTime visibleMaxTime : K) :
    List (WaveSample K) × ℕ :=
  let minTime := if visibleMaxTime < visibleMinTime then visibleMaxTime else visibleMinTime
  let maxTime := if visibleMaxTime < visibleMinTime then visibleMinTime else visibleMaxTime
  let begin := lowerBoundByTime samples minTime
  let fin := upperBoundByTime samples maxTime
  let visibleSampleCount := if begin < fin then fin - begin else 0
  let guardedBegin := if begin ≠ 0 then begin - 1 else begin
  let guardedEnd := if fin ≠ samples.length then fin + 1 else fin
  ((samples.drop guardedBegin).take (guardedEnd - guardedBegin), visibleSampleCount)

end Window

variable {K : Type} [Field K] [LinearOrder K]

/-! ### The envelope -/

/-- The samples from one position to another, in a bucket. -/
def gather (window : List (WaveSample K)) (bucketBegin bucketEnd : ℕ) : EnvelopeBucket K :=
  ((window.drop bucketBegin).take (bucketEnd - bucketBegin)).foldl
    (fun bucket sample => bucket.add sample.time sample.value) .empty

/-- The points and the number of samples in the window. -/
def buildDisplayEnvelope (samples : List (WaveSample K)) (visibleMinTime visibleMaxTime : K)
    (pointLimit : ℕ) : List (EnvelopePoint K) × ℕ :=
  if samples.isEmpty || pointLimit = 0 then ([], 0)
  else
    let (window, visibleSampleCount) := displayWindow samples visibleMinTime visibleMaxTime
    let bucketCount := min pointLimit window.length
    let border := UniformBuckets.border window.length bucketCount
    ((List.range bucketCount).flatMap fun bucket =>
      (gather window (border bucket) (border (bucket + 1))).point, visibleSampleCount)

/-! ### Peaks -/

/-- `*(begin + index)` -/
def windowSample (window : List (WaveSample K)) (index : ℕ) : WaveSample K :=
  window.getD index ⟨0, 0⟩

/-- The position whose value no other one beats, the first of them. -/
def extremeIndex (beats : K → K → Bool) (window : List (WaveSample K))
    (bucketBegin bucketEnd : ℕ) : ℕ :=
  let better := fun new old =>
    beats (windowSample window new).value (windowSample window old).value
  (List.range' (bucketBegin + 1) (bucketEnd - (bucketBegin + 1))).foldl
    (fun best offset => Selection.pick better offset best) bucketBegin

/-- The positions that stand for a bucket, in their order. -/
def representatives (window : List (WaveSample K)) (bucketBegin bucketEnd : ℕ) : List ℕ :=
  [bucketBegin, extremeIndex (fun new old => decide (new < old)) window bucketBegin bucketEnd,
    extremeIndex (fun new old => decide (old < new)) window bucketBegin bucketEnd,
    bucketEnd - 1].insertionSort (· ≤ ·)

/-- The loop over the positions of a bucket; the trace is that of the positions so far. -/
def pushRepresentatives (pointLimit : ℕ) : List ℕ → Option ℕ → List ℕ → List ℕ
  | trace, _, [] => trace
  | trace, previousIndex, index :: rest =>
    if previousIndex = some index then pushRepresentatives pointLimit trace previousIndex rest
    else if pointLimit ≤ trace.length then trace
    else pushRepresentatives pointLimit (trace ++ [index]) (some index) rest

/-- The loop over the buckets. -/
def peakPositions (window : List (WaveSample K)) (pointLimit bucketCount : ℕ) : List ℕ :=
  let border := UniformBuckets.border window.length bucketCount
  (List.range bucketCount).foldl
    (fun trace bucket =>
      if trace.length < pointLimit ∧ border bucket < border (bucket + 1) then
        pushRepresentatives pointLimit trace none
          (representatives window (border bucket) (border (bucket + 1)))
      else trace)
    []

/-- The samples of the trace and the number of samples in the window. -/
def buildPeakDetectDownsample (samples : List (WaveSample K))
    (visibleMinTime visibleMaxTime : K) (pointLimit : ℕ) : List (WaveSample K) × ℕ :=
  if samples.isEmpty || pointLimit = 0 then ([], 0)
  else
    let (window, visibleSampleCount) := displayWindow samples visibleMinTime visibleMaxTime
    if window.length ≤ pointLimit then (window, visibleSampleCount)
    else
      let bucketCount := min window.length (max 1 (pointLimit / 4))
      ((peakPositions window pointLimit bucketCount).map (windowSample window), visibleSampleCount)

end ProtoScope.Plot
