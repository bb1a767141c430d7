/-
The oscilloscope buffer: the channels and what they keep of their samples.

Samples come in increasing time.  A request that starts at the origin again, or before what
is there, is taken for a new recording, which empties every channel, or is moved behind it,
as the program is configured; samples that are not after the last one are dropped.  Each
channel is then cut to its limit.

What `std::sort` does to samples that are not in order is a parameter: it leaves open how
those of one time are arranged.
-/
import ProtoScope.Plot.ChannelSpec
import ProtoScope.Plot.WaveQuery

namespace ProtoScope.Plot

open ProtoScope.Data (Text text)

structure WaveAppendRequest where
  source : Text := []
  samples : List (WaveSample Float) := []
deriving DecidableEq

structure ChannelBuffer where
  spec : ChannelSpec := {}
  samples : List (WaveSample Float) := []
  sampleIndexOffset : ℕ := 0
deriving DecidableEq

instance : Inhabited ChannelBuffer := ⟨{}⟩

inductive WaveDataSource where
  | live
  | imported
deriving DecidableEq, Repr

structure OscilloscopeBuffer where
  config : ViewConfig := {}
  channels : List ChannelBuffer := []
  preservedHistoryLimit : ℕ := 0
  maxTotalSamples : ℕ := 0
  resetHistoryOnTimeReset : Bool := true
  historyTrimSuspended : Bool := false
  dataSource : WaveDataSource := .live
deriving DecidableEq

/-- `1e-12` -/
def kEpsilon : Float := Float.ofBits 0x3D719799812DEA11

/-- A way to order samples by time. -/
abbrev SampleOrder : Type := List (WaveSample Float) → List (WaveSample Float)

/-! ### Times -/

def isSortedByTime : List (WaveSample Float) → Bool
  | first :: second :: samples =>
    !second.time.lt first.time && isSortedByTime (second :: samples)
  | _ => true

def sortSamplesByTime (sort : SampleOrder) (samples : List (WaveSample Float)) :
    List (WaveSample Float) :=
  if isSortedByTime samples then samples else sort samples

def startsAtHistoryOrigin (samples : List (WaveSample Float)) (lastTime : Float) : Bool :=
  match samples with
  | [] => false
  | first :: _ => first.time.le lastTime && first.time.le kEpsilon

/-- The first step forward between two finite times. -/
def estimateTimeStep : List (WaveSample Float) → Float
  | previous :: current :: samples =>
    if previous.time.isFinite && current.time.isFinite && previous.time.lt current.time then
      current.time.sub previous.time
    else estimateTimeStep (current :: samples)
  | _ => kEpsilon

def shiftSamplesAfterLastTime (samples : List (WaveSample Float)) (lastTime : Float) :
    List (WaveSample Float) :=
  match samples with
  | [] => []
  | first :: _ =>
    samples.map fun sample =>
      { sample with
        time := sample.time.add ((lastTime.add (estimateTimeStep samples)).sub first.time) }

def dropSamplesNotAfterLastTime (samples : List (WaveSample Float)) (lastTime : Float) :
    List (WaveSample Float) :=
  samples.filter fun sample => !sample.time.le lastTime

namespace OscilloscopeBuffer

def importedLabelsReadOnly (buffer : OscilloscopeBuffer) : Bool :=
  buffer.dataSource == .imported

/-! ### Limits -/

def effectiveHistoryLimit (buffer : OscilloscopeBuffer) : ℕ :=
  if buffer.config.historyLimit = 0 then buffer.preservedHistoryLimit
  else max buffer.config.historyLimit.toNat buffer.preservedHistoryLimit

/-- How many samples a channel may keep, if there is a limit. -/
def effectiveLimit (buffer : OscilloscopeBuffer) : Option ℕ :=
  if buffer.historyTrimSuspended then none
  else if 0 < buffer.effectiveHistoryLimit then
    if 0 < buffer.maxTotalSamples then
      some (min buffer.effectiveHistoryLimit buffer.maxTotalSamples)
    else some buffer.effectiveHistoryLimit
  else if 0 < buffer.maxTotalSamples then some buffer.maxTotalSamples
  else none

/-- What a channel keeps under a limit: its last samples. -/
def keepLast (limit : Option ℕ) (channel : ChannelBuffer) : ChannelBuffer :=
  match limit with
  | none => channel
  | some limit =>
    if channel.samples.length ≤ limit then channel
    else
      { channel with
        sampleIndexOffset := channel.sampleIndexOffset + (channel.samples.length - limit)
        samples := channel.samples.drop (channel.samples.length - limit) }

def trimHistory (buffer : OscilloscopeBuffer) (channel : ChannelBuffer) : ChannelBuffer :=
  keepLast buffer.effectiveLimit channel

/-! ### Channels -/

def clear (buffer : OscilloscopeBuffer) : OscilloscopeBuffer :=
  { buffer with
    channels := []
    config := {}
    preservedHistoryLimit := 0 }

/-- A channel without a label is named after its position. -/
def labelled (index : ℕ) (channel : ChannelBuffer) : ChannelBuffer :=
  if channel.spec.label = [] then
    { channel with spec := { channel.spec with label := defaultLabel index } }
  else channel

/-- `channels_.resize(channelCount)` -/
def resized (channelCount : ℕ) (channels : List ChannelBuffer) : List ChannelBuffer :=
  channels.take channelCount ++ List.replicate (channelCount - channels.length) default

def configureChannels (buffer : OscilloscopeBuffer) (channelCount : ℕ) : OscilloscopeBuffer :=
  { buffer with channels := (resized channelCount buffer.channels).mapIdx labelled }

def ensureChannel (buffer : OscilloscopeBuffer) (channelIndex : ℕ) : OscilloscopeBuffer :=
  if buffer.channels.length ≤ channelIndex then buffer.configureChannels (channelIndex + 1)
  else buffer

def updateChannel (buffer : OscilloscopeBuffer) (channelIndex : ℕ)
    (update : ChannelBuffer → ChannelBuffer) : OscilloscopeBuffer :=
  { buffer with channels := buffer.channels.modify channelIndex update }

/-- The comparison of two settings, with that of floating-point numbers. -/
def sameSpec (left right : ChannelSpec) : Bool :=
  left.label == right.label && left.unit == right.unit && left.ratio.beq right.ratio &&
    left.scale.beq right.scale && left.offset.beq right.offset &&
    (match left.color, right.color with
      | some l, some r =>
        l.red.beq r.red && l.green.beq r.green && l.blue.beq r.blue && l.alpha.beq r.alpha
      | none, none => true
      | _, _ => false) &&
    (match left.lineWidth, right.lineWidth with
      | some l, some r => l.beq r
      | none, none => true
      | _, _ => false) &&
    left.bitDisplay.enabled == right.bitDisplay.enabled &&
    left.bitDisplay.firstBit == right.bitDisplay.firstBit &&
    left.bitDisplay.bitCount == right.bitDisplay.bitCount &&
    left.bitDisplay.yOffset.beq right.bitDisplay.yOffset &&
    left.bitDisplay.hoverReadout == right.bitDisplay.hoverReadout

/-- `setChannelSpec`: an imported channel keeps its label. -/
def withSpec (numbers : Numbers) (imported : Bool) (channelIndex : ℕ) (spec : ChannelSpec)
    (channel : ChannelBuffer) : ChannelBuffer :=
  let spec := sanitizeChannelSpec numbers channelIndex spec
  let spec := if imported then { spec with label := channel.spec.label } else spec
  if sameSpec channel.spec spec then channel else { channel with spec := spec }

def setChannelSpec (numbers : Numbers) (buffer : OscilloscopeBuffer) (channelIndex : ℕ)
    (spec : ChannelSpec) : OscilloscopeBuffer :=
  (buffer.ensureChannel channelIndex).updateChannel channelIndex
    (withSpec numbers buffer.importedLabelsReadOnly channelIndex spec)

def setViewConfig (buffer : OscilloscopeBuffer) (config : ViewConfig) : OscilloscopeBuffer :=
  let configured : OscilloscopeBuffer :=
    { buffer with
      config :=
        { config with
          timeScale := if config.timeScale.abs.le kEpsilon then one else config.timeScale } }
  { configured with channels := buffer.channels.map configured.trimHistory }

/-! ### Appending -/

/-- Prepared samples go behind those of the channel. -/
def appendPreparedSamples (buffer : OscilloscopeBuffer) (channelIndex : ℕ)
    (samples : List (WaveSample Float)) : OscilloscopeBuffer :=
  if samples = [] then buffer
  else
    buffer.updateChannel channelIndex fun channel =>
      buffer.trimHistory { channel with samples := channel.samples ++ samples }

/-- A new recording: no channel keeps anything. -/
def appendAfterHistoryReset (buffer : OscilloscopeBuffer) (channelIndex : ℕ)
    (samples : List (WaveSample Float)) : OscilloscopeBuffer :=
  appendPreparedSamples
    { buffer with
      channels := buffer.channels.map fun channel =>
        { channel with samples := [], sampleIndexOffset := 0 }
      preservedHistoryLimit := 0 }
    channelIndex samples

/-- Sorted samples are appended to a channel whose last sample, if it has one, is given. -/
def appendSorted (buffer : OscilloscopeBuffer) (channelIndex : ℕ)
    (samples : List (WaveSample Float)) : Option (WaveSample Float) → OscilloscopeBuffer
  | none => buffer.appendPreparedSamples channelIndex samples
  | some last =>
    if startsAtHistoryOrigin samples last.time then
      if buffer.resetHistoryOnTimeReset then buffer.appendAfterHistoryReset channelIndex samples
      else
        buffer.appendPreparedSamples channelIndex
          (dropSamplesNotAfterLastTime (shiftSamplesAfterLastTime samples last.time) last.time)
    else
      buffer.appendPreparedSamples channelIndex (dropSamplesNotAfterLastTime samples last.time)

def lastSample (buffer : OscilloscopeBuffer) (channelIndex : ℕ) : Option (WaveSample Float) :=
  (buffer.channels.getD channelIndex default).samples.getLast?

def append (sort : SampleOrder) (buffer : OscilloscopeBuffer) (channelIndex : ℕ)
    (request : WaveAppendRequest) : OscilloscopeBuffer :=
  if request.samples = [] then buffer
  else
    (buffer.ensureChannel channelIndex).appendSorted channelIndex
      (sortSamplesByTime sort request.samples)
      ((buffer.ensureChannel channelIndex).lastSample channelIndex)

end OscilloscopeBuffer

end ProtoScope.Plot
