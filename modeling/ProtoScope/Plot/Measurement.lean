/-
What is measured in a window of samples.

`makeMeasurementReadout` takes the times and values of a window, and values of a reference if
there are as many, and computes how they are spread, how long the signal is high and low, how
often it crosses the middle between its extremes, how fast it rises and falls, and how far it is
from the reference.
-/
import ProtoScope.Plot.DisplayData

namespace ProtoScope.Plot

structure MeasurementReadout (α : Type) where
  valid : Bool
  channelIndex : ℕ
  sampleCount : ℕ
  minValue : α
  maxValue : α
  peakToPeak : α
  meanValue : α
  rmsValue : α
  medianValue : α
  p95Value : α
  p99Value : α
  variance : α
  stddev : α
  cv : Option α := none
  mad : α
  medianAbsDev : α
  iqr : α
  p95Spread : α
  highWidth : α
  lowWidth : α
  dutyCycle : Option α := none
  riseTime : Option α := none
  fallTime : Option α := none
  edgeCount : ℕ := 0
  absoluteError : Option α := none
  relativeErrorPercent : Option α := none
  meanError : Option α := none
  mse : Option α := none
  rmse : Option α := none
  mae : Option α := none
  maxAbsError : Option α := none
  bias : Option α := none
  duration : α
deriving DecidableEq

variable {α : Type} [WaveArith α]

open WaveScalar WaveArith

/-- `MeasurementReadout{}` -/
def emptyReadout : MeasurementReadout α where
  valid := false
  channelIndex := 0
  sampleCount := 0
  minValue := zero
  maxValue := zero
  peakToPeak := zero
  meanValue := zero
  rmsValue := zero
  medianValue := zero
  p95Value := zero
  p99Value := zero
  variance := zero
  stddev := zero
  mad := zero
  medianAbsDev := zero
  iqr := zero
  p95Spread := zero
  highWidth := zero
  lowWidth := zero
  duration := zero

/-! ### Lists of values -/

/-- A literal such as `0.95` -/
def hundredths (n : ℕ) : α := div (ofSize n) (ofSize 100)

/-- `*std::min_element` -/
def minElement (values : List α) : α :=
  values.tail.foldl (fun best value => if lt value best then value else best)
    (values.headD zero)

/-- `*std::max_element` -/
def maxElement (values : List α) : α :=
  values.tail.foldl (fun best value => if lt best value then value else best)
    (values.headD zero)

/-- `std::accumulate` from zero -/
def accumulate (values : List α) : α := values.foldl add zero

def sortValues (values : List α) : List α :=
  values.mergeSort fun first second => !lt second first

def nearestRankPercentile (sortedValues : List α) (percentile : α) : α :=
  if sortedValues.isEmpty then zero
  else
    let rawRank := ceil (mul percentile (ofSize sortedValues.length))
    let rank := (toUInt64 (if le rawRank (ofSize 1) then zero else sub rawRank (ofSize 1))).toNat
    sortedValues.getD (min rank (sortedValues.length - 1)) zero

/-! ### Crossings -/

/-- The two samples of a step, and whether it crosses a level, and when. -/
structure SignalStep (α : Type) where
  previousTime : α
  previous : α
  currentTime : α
  current : α

namespace SignalStep

def width (step : SignalStep α) : α := sub step.currentTime step.previousTime

def crosses (step : SignalStep α) (rising : Bool) (level : α) : Bool :=
  if rising then lt step.previous level && le level step.current
  else lt level step.previous && le step.current level

def crossingTime (step : SignalStep α) (level : α) : α :=
  add step.previousTime
    (div (mul (sub level step.previous) step.width) (sub step.current step.previous))

/-- The step goes back in time, or the signal hardly changes. -/
def skipped (step : SignalStep α) : Bool :=
  lt step.width zero || le (fabs (sub step.current step.previous)) kMathEpsilon

end SignalStep

/-- The step that ends at a sample. -/
def signalStep (times values : List α) (index : ℕ) : SignalStep α where
  previousTime := times.getD (index - 1) zero
  previous := values.getD (index - 1) zero
  currentTime := times.getD index zero
  current := values.getD index zero

/-- The steps of a window in order. -/
def signalSteps (times values : List α) : List (SignalStep α) :=
  (List.range' 1 (values.length - 1)).map (signalStep times values)

/-- The loop of `firstCrossingDuration`; the start has been crossed at `startTime`. -/
def crossingLoop (startLevel endLevel : α) (rising : Bool) :
    Option α → List (SignalStep α) → Option α
  | _, [] => none
  | startTime, step :: steps =>
    if step.skipped then crossingLoop startLevel endLevel rising startTime steps
    else
      let startTime :=
        if startTime.isNone && step.crosses rising startLevel then
          some (step.crossingTime startLevel)
        else startTime
      match startTime with
      | some start =>
        if step.crosses rising endLevel then some (sub (step.crossingTime endLevel) start)
        else crossingLoop startLevel endLevel rising startTime steps
      | none => crossingLoop startLevel endLevel rising none steps

def firstCrossingDuration (times values : List α) (startLevel endLevel : α) (rising : Bool) :
    Option α :=
  crossingLoop startLevel endLevel rising none (signalSteps times values)

/-! ### Edges and widths -/

structure EdgeWidths (α : Type) where
  edgeCount : ℕ
  highWidth : α
  lowWidth : α

def EdgeWidths.step (threshold : α) (widths : EdgeWidths α) (step : SignalStep α) :
    EdgeWidths α :=
  let edge := step.crosses true threshold || step.crosses false threshold
  let widths := if edge then { widths with edgeCount := widths.edgeCount + 1 } else widths
  if le step.width zero then widths
  else if le threshold step.previous && le threshold step.current then
    { widths with highWidth := add widths.highWidth step.width }
  else if lt step.previous threshold && lt step.current threshold then
    { widths with lowWidth := add widths.lowWidth step.width }
  else widths

/-- The part of the readout about rising, falling, and being high or low. -/
def measureTiming (times values : List α) (readout : MeasurementReadout α) :
    MeasurementReadout α :=
  if decide (2 ≤ values.length) && lt kMathEpsilon readout.peakToPeak then
    let threshold := half (add readout.minValue readout.maxValue)
    let riseStart := add readout.minValue (mul readout.peakToPeak (hundredths 10))
    let riseEnd := add readout.minValue (mul readout.peakToPeak (hundredths 90))
    let widths := (signalSteps times values).foldl (EdgeWidths.step threshold) ⟨0, zero, zero⟩
    { readout with
      riseTime := firstCrossingDuration times values riseStart riseEnd true
      fallTime := firstCrossingDuration times values riseEnd riseStart false
      edgeCount := widths.edgeCount
      highWidth := widths.highWidth
      lowWidth := widths.lowWidth
      dutyCycle :=
        if lt kMathEpsilon readout.duration then
          some (mul (div widths.highWidth readout.duration) (ofSize 100))
        else none }
  else readout

/-! ### The readout -/

/-- How the values are spread; `sqrt` is `std::sqrt`. -/
def measureSpread (sqrt : α → α) (channelIndex : ℕ) (times values : List α) :
    MeasurementReadout α :=
  let count : α := ofSize values.length
  let minValue := minElement values
  let maxValue := maxElement values
  let meanValue := div (accumulate values) count
  let sorted := sortValues values
  let medianValue := nearestRankPercentile sorted (hundredths 50)
  let deviations := values.map fun value => sub value meanValue
  let medianDeviations := sortValues (values.map fun value => fabs (sub value medianValue))
  let variance := div (accumulate (deviations.map fun deviation => mul deviation deviation)) count
  let stddev := sqrt variance
  { valid := true
    channelIndex := channelIndex
    sampleCount := values.length
    minValue := minValue
    maxValue := maxValue
    peakToPeak := sub maxValue minValue
    meanValue := meanValue
    rmsValue := sqrt (div (accumulate (values.map fun value => mul value value)) count)
    medianValue := medianValue
    p95Value := nearestRankPercentile sorted (hundredths 95)
    p99Value := nearestRankPercentile sorted (hundredths 99)
    variance := variance
    stddev := stddev
    cv := if lt kMathEpsilon (fabs meanValue) then some (div stddev (fabs meanValue)) else none
    mad := div (accumulate (deviations.map fabs)) count
    medianAbsDev := nearestRankPercentile medianDeviations (hundredths 50)
    iqr := sub (nearestRankPercentile sorted (hundredths 75))
      (nearestRankPercentile sorted (hundredths 25))
    p95Spread := sub (nearestRankPercentile sorted (hundredths 95))
      (nearestRankPercentile sorted (hundredths 5))
    highWidth := zero
    lowWidth := zero
    duration := sub (times.getD (values.length - 1) zero) (times.headD zero) }

/-- The part of the readout about the reference. -/
def measureErrors (sqrt : α → α) (values : List α) (referenceValues : List α)
    (readout : MeasurementReadout α) : MeasurementReadout α :=
  let count : α := ofSize values.length
  let errors := List.zipWith sub values referenceValues
  let reference := referenceValues.getLastD zero
  let absoluteError := sub (values.getLastD zero) reference
  let meanError := div (accumulate errors) count
  let mse := div (accumulate (errors.map fun error => mul error error)) count
  { readout with
    absoluteError := some absoluteError
    relativeErrorPercent :=
      if lt kMathEpsilon (fabs reference) then
        some (mul (div absoluteError (fabs reference)) (ofSize 100))
      else none
    meanError := some meanError
    mse := some mse
    rmse := some (sqrt mse)
    mae := some (div (accumulate (errors.map fabs)) count)
    maxAbsError := some ((errors.map fabs).foldl
      (fun greatest error => if lt greatest error then error else greatest) zero)
    bias := some meanError }

def makeMeasurementReadout (sqrt : α → α) (channelIndex : ℕ) (times values : List α)
    (referenceValues : Option (List α)) : MeasurementReadout α :=
  if values.isEmpty || decide (times.length < values.length) then emptyReadout
  else
    let readout := measureTiming times values (measureSpread sqrt channelIndex times values)
    match referenceValues with
    | some reference =>
      if reference.length = values.length then measureErrors sqrt values reference readout
      else readout
    | none => readout

end ProtoScope.Plot
