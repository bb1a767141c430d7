/-
Measuring a window of what is displayed.

`measureDisplayWindow` measures at once: channels with a source are cut out of their whole history
first, and the window is then searched in what was cut out.  `requestWaveMeasurement` collects the
same vectors from the sources themselves and leaves the readout to a worker thread.  Either way the
values of a reference channel are taken at the times of the measured one, and the first time without
a match gives all of them up.
-/
import ProtoScope.Plot.Measurement

namespace ProtoScope.Plot

open ProtoScope.Library

variable {α : Type} [WaveArith α]

open WaveScalar WaveArith

/-- How far away a sample of the reference may be: `1e-9` -/
def kReferenceTolerance : α := div (ofSize 1) (ofSize (10 ^ 9))

/-- The vectors a readout is made from. -/
structure WaveMeasurementInput (α : Type) where
  channel : ℕ
  times : List α
  values : List α
  reference : List α
deriving DecidableEq

/-- The reference counts only where there is a value of it for every value measured. -/
def WaveMeasurementInput.readout (sqrt : α → α) (input : WaveMeasurementInput α) :
    MeasurementReadout α :=
  makeMeasurementReadout sqrt input.channel input.times input.values
    (if input.reference.length = input.values.length then some input.reference else none)

/-- The values of a reference, one for each time; none at all if some time has no match. -/
def matchedReference (value? : α → Option α) (times : List α) : List α :=
  (times.mapM value?).getD []

namespace WaveDisplayChannel

/-- `std::lower_bound` over the times of the samples -/
def lowerBound (channel : WaveDisplayChannel α) (time : α) : ℕ :=
  PartitionPoint.find (fun sample : WaveSample α => lt sample.time time) channel.samples

/-- `std::upper_bound` over the times of the samples -/
def upperBound (channel : WaveDisplayChannel α) (time : α) : ℕ :=
  PartitionPoint.find (fun sample : WaveSample α => !lt time sample.time) channel.samples

def sampleTime (channel : WaveDisplayChannel α) (index : ℕ) : α :=
  (channel.samples.getD index default).time

def actualAt (channel : WaveDisplayChannel α) (index : ℕ) : α :=
  channel.resolveActualValue index (channel.samples.getD index default).value

/-- The value of the first sample that is not before a time, if it is close enough. -/
def referenceValue (channel : WaveDisplayChannel α) (time : α) : Option α :=
  let index := channel.lowerBound time
  if index = channel.samples.length ||
      lt kReferenceTolerance (fabs (sub (channel.sampleTime index) time)) then none
  else some (channel.actualAt index)

end WaveDisplayChannel

/-! ### Measuring at once -/

/-- What is measured in materialised channels, if the window shows a sample. -/
def windowInput (channels : List (WaveDisplayChannel α)) (channelIndex : ℕ) (beginTime endTime : α)
    (referenceChannelIndex : Option ℕ) (manualReferenceValue : Option α) :
    Option (WaveMeasurementInput α) :=
  let channel := channels.getD channelIndex {}
  let begin := channel.lowerBound (WaveQueryView.ordered beginTime endTime).1
  let fin := channel.upperBound (WaveQueryView.ordered beginTime endTime).2
  if fin ≤ begin then none
  else
    let indices := List.range' begin (fin - begin)
    let times := indices.map channel.sampleTime
    some
      { channel := channelIndex
        times := times
        values := indices.map channel.actualAt
        reference :=
          match manualReferenceValue, referenceChannelIndex.bind (channels[·]?) with
          | some value, _ => List.replicate indices.length value
          | none, some reference => matchedReference reference.referenceValue times
          | none, none => [] }

/-- The two channels of a measurement, cut out of their sources; the others stay empty. -/
def exactChannels (channels : List (WaveDisplayChannel α)) (channelIndex : ℕ) (minTime maxTime : α)
    (referenceChannelIndex : Option ℕ) : List (WaveDisplayChannel α) :=
  (List.range channels.length).map fun i =>
    if i = channelIndex ∨ referenceChannelIndex = some i then
      (channels.getD i {}).extractDisplayWindow minTime maxTime false
    else {}

def displayWindowInput (channels : List (WaveDisplayChannel α)) (channelIndex : ℕ)
    (beginTime endTime : α) (referenceChannelIndex : Option ℕ) (manualReferenceValue : Option α) :
    Option (WaveMeasurementInput α) :=
  match channels[channelIndex]? with
  | none => none
  | some channel =>
    let minTime := if lt endTime beginTime then endTime else beginTime
    let maxTime := if lt beginTime endTime then endTime else beginTime
    windowInput
      (if channel.source.isSome then
        exactChannels channels channelIndex minTime maxTime referenceChannelIndex
      else channels)
      channelIndex beginTime endTime referenceChannelIndex manualReferenceValue

def measureDisplayWindow (sqrt : α → α) (channels : List (WaveDisplayChannel α)) (channelIndex : ℕ)
    (beginTime endTime : α) (referenceChannelIndex : Option ℕ) (manualReferenceValue : Option α) :
    MeasurementReadout α :=
  match displayWindowInput channels channelIndex beginTime endTime referenceChannelIndex
      manualReferenceValue with
  | some input => input.readout sqrt
  | none => emptyReadout

/-! ### Collecting for the worker -/

/-- `while (i < size && time(i) < target) ++i;` -/
def advance (size : ℕ) (before : ℕ → Bool) (i : ℕ) : ℕ :=
  ((List.range' i (size - i)).find? fun j => !before j).getD size

/-- The loop over the times; the position in the reference only moves forward. -/
def scanReference (size : ℕ) (time actual : ℕ → α) : ℕ → List α → Option (List α)
  | _, [] => some []
  | i, target :: targets =>
    let i := advance size (fun j => lt (time j) target) i
    if i = size || lt kReferenceTolerance (fabs (sub (time i) target)) then none
    else (scanReference size time actual i targets).map (actual i :: ·)

namespace WaveDisplayChannel

/-- The times and values of a window that is in order. -/
def collectSamples (channel : WaveDisplayChannel α) (beginTime endTime : α) : List α × List α :=
  if le beginTime endTime then
    match channel.source with
    | some source =>
      let query := channel.query source
      let range := query.range beginTime endTime false
      let indices := List.range' range.1 (range.2 - range.1)
      (indices.map query.time, indices.map query.actual)
    | none =>
      let first := channel.lowerBound beginTime
      let last := max first (channel.upperBound endTime)
      let indices := List.range' first (last - first)
      (indices.map channel.sampleTime, indices.map channel.actualAt)
  else ([], [])

def collectReference (channel : WaveDisplayChannel α) (beginTime endTime : α) (times : List α) :
    List α :=
  match channel.source with
  | some source =>
    let query := channel.query source
    (scanReference query.size query.time query.actual (query.range beginTime endTime true).1
      times).getD []
  | none =>
    (scanReference channel.samples.length channel.sampleTime channel.actualAt 0 times).getD []

end WaveDisplayChannel

/-- The window of a request; with a visible part given it is cut to that. -/
def requestWindow (beginTime endTime : α) (visible : Option (α × α)) : α × α :=
  let times := WaveQueryView.ordered beginTime endTime
  match visible with
  | some (viewMinTime, viewMaxTime) =>
    (if lt times.1 viewMinTime then viewMinTime else times.1,
      if lt viewMaxTime times.2 then viewMaxTime else times.2)
  | none => times

/-- What a request hands to the worker. -/
def requestInput (channels : List (WaveDisplayChannel α)) (channelIndex : ℕ) (beginTime endTime : α)
    (visible : Option (α × α)) (referenceChannelIndex : Option ℕ)
    (manualReferenceValue : Option α) : Option (WaveMeasurementInput α) :=
  match channels[channelIndex]? with
  | none => none
  | some measured =>
    if isFinite beginTime && isFinite endTime then
      let window := requestWindow beginTime endTime visible
      let collected := measured.collectSamples window.1 window.2
      some
        { channel := channelIndex
          times := collected.1
          values := collected.2
          reference :=
            match manualReferenceValue, referenceChannelIndex.bind (channels[·]?) with
            | some value, _ => List.replicate collected.2.length value
            | none, some reference => reference.collectReference window.1 window.2 collected.1
            | none, none => [] }
    else none

/-- The readout of a request that has finished, the data unchanged. -/
def requestWaveMeasurement (sqrt : α → α) (channels : List (WaveDisplayChannel α))
    (channelIndex : ℕ) (beginTime endTime : α) (visible : Option (α × α))
    (referenceChannelIndex : Option ℕ) (manualReferenceValue : Option α) :
    Option (MeasurementReadout α) :=
  (requestInput channels channelIndex beginTime endTime visible referenceChannelIndex
    manualReferenceValue).map (WaveMeasurementInput.readout sqrt)

end ProtoScope.Plot
