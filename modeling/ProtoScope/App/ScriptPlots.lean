/-
How the plot calls of a script reach the waveform buffer.

The host collects setups and appends in two lists, a batch of outputs carries both.  The
setups of a batch are applied at once.  The appends go into a queue, up to a hard limit, and
each pump hands over the requests of as many channels and sources as its budget allows,
those of one channel and source merged into one; the others stay in the queue.
-/
import ProtoScope.Library.ClosedPrefix
import ProtoScope.Plot.OscilloscopeBuffer
import ProtoScope.Plot.RawCaptureEvents

namespace ProtoScope.App

open ProtoScope.Data (Text)
open ProtoScope.Library
open ProtoScope.Plot

/-- A channel index with what is to be appended to it. -/
abbrev ScriptPlotAppendRequest : Type := ℕ × WaveAppendRequest

/-! ### Merging and draining -/

/-- `'\x1F'` -/
def unitSeparator : UInt8 := 31

def scriptPlotAppendKey (channelIndex : ℕ) (source : Text) : Text :=
  Decimal.render channelIndex ++ unitSeparator :: source

def requestKey (append : ScriptPlotAppendRequest) : Text :=
  scriptPlotAppendKey append.1 append.2.source

def mergePlotAppendSamples (source target : ScriptPlotAppendRequest) : ScriptPlotAppendRequest :=
  (target.1, { target.2 with samples := target.2.samples ++ source.2.samples })

/-- Requests with the position of each key among them. -/
structure MergedRequests where
  requests : List ScriptPlotAppendRequest := []
  indexes : List (Text × ℕ) := []

/-- The first request of a key is added, a later one merged into it. -/
def MergedRequests.selectOrMerge (merged : MergedRequests) (append : ScriptPlotAppendRequest) :
    MergedRequests :=
  match merged.indexes.lookup (requestKey append) with
  | some position =>
    { merged with requests := merged.requests.modify position (mergePlotAppendSamples append) }
  | none =>
    { requests := merged.requests ++ [append]
      indexes := merged.indexes ++ [(requestKey append, merged.requests.length)] }

structure ScriptPlotAppendDrainState where
  selected : MergedRequests := {}
  deferred : List ScriptPlotAppendRequest := []
  maxSelectedKeys : ℕ := 0

def shouldDeferNewScriptPlotAppend (state : ScriptPlotAppendDrainState) (key : Text) : Bool :=
  (state.selected.indexes.lookup key).isNone &&
    decide (state.maxSelectedKeys ≤ state.selected.indexes.length)

def drainScriptPlotAppendCandidate (state : ScriptPlotAppendDrainState)
    (append : ScriptPlotAppendRequest) : ScriptPlotAppendDrainState :=
  if shouldDeferNewScriptPlotAppend state (requestKey append) then
    { state with deferred := state.deferred ++ [append] }
  else { state with selected := state.selected.selectOrMerge append }

/-- The requests a pump takes, and what stays in the queue. -/
def drainScriptPlotAppendsForPump (maxPlotAppends : ℕ) (pending : List ScriptPlotAppendRequest) :
    List ScriptPlotAppendRequest × List ScriptPlotAppendRequest :=
  let state := pending.foldl drainScriptPlotAppendCandidate { maxSelectedKeys := maxPlotAppends }
  (state.selected.requests, state.deferred)

def mergeNonEmpty (merged : MergedRequests) (append : ScriptPlotAppendRequest) : MergedRequests :=
  if append.2.samples = [] then merged else merged.selectOrMerge append

def mergeNonEmptyScriptPlotAppends (requests : List ScriptPlotAppendRequest) :
    List ScriptPlotAppendRequest :=
  (requests.foldl mergeNonEmpty {}).requests

/-- The queue takes requests as long as it has room. -/
def enqueueScriptPlotAppends (workerOutputQueueLimit : ℕ)
    (pending appends : List ScriptPlotAppendRequest) : List ScriptPlotAppendRequest :=
  pending ++ appends.take (max workerOutputQueueLimit 1 - pending.length)

/-! ### The queue of the host -/

/-- `ScriptHost::drainPlotAppends(maxRequests)`: the requests that are handed over, and what stays
in the queue.  The requests of a channel and source are not torn apart. -/
def drainPlotAppends (maxRequests : ℕ) (plotAppends : List ScriptPlotAppendRequest) :
    List ScriptPlotAppendRequest × List ScriptPlotAppendRequest :=
  if plotAppends.isEmpty || decide (maxRequests = 0) then ([], plotAppends)
  else
    let count := growCut requestKey plotAppends (min maxRequests plotAppends.length)
    (plotAppends.take count, plotAppends.drop count)

/-! ### Setups -/

/-- What the user has changed about a channel. -/
structure ChannelTransformOverride where
  label : Option Text := none
  ratio : Option Float := none
  scale : Option Float := none
  offset : Option Float := none
  color : Option (Option Color) := none
  bitYOffset : Option Float := none
deriving DecidableEq

instance : Inhabited ChannelTransformOverride := ⟨{}⟩

structure WaveDockState where
  buffer : OscilloscopeBuffer := {}
  defaultChannelSpecs : List ChannelSpec := []
  channelOverrides : List ChannelTransformOverride := []
  displayFormula : WaveDisplayFormula := .offsetThenScale
deriving DecidableEq

def sameBitDisplayIdentity (left right : BitDisplaySpec) : Bool :=
  left.enabled == right.enabled && left.firstBit == right.firstBit &&
    left.bitCount == right.bitCount

def sameChannelIdentity (setupChannels current : List ChannelSpec) : Bool :=
  decide (setupChannels.length = current.length) &&
    (setupChannels.zip current).all fun pair =>
      pair.2.label == pair.1.label && pair.2.unit == pair.1.unit &&
        sameBitDisplayIdentity pair.2.bitDisplay pair.1.bitDisplay

/-- The overrides that an import leaves in force. -/
def ChannelTransformOverride.applyDisplay (override : ChannelTransformOverride)
    (spec : ChannelSpec) : ChannelSpec :=
  { spec with
    ratio := override.ratio.getD spec.ratio
    scale := override.scale.getD spec.scale
    offset := override.offset.getD spec.offset
    color := override.color.getD spec.color
    bitDisplay :=
      { spec.bitDisplay with yOffset := override.bitYOffset.getD spec.bitDisplay.yOffset } }

def ChannelTransformOverride.apply (override : ChannelTransformOverride) (spec : ChannelSpec) :
    ChannelSpec :=
  { override.applyDisplay spec with label := override.label.getD spec.label }

namespace WaveDockState

/-- A setup while imported data is shown changes how the common channels are drawn. -/
def applyImportedChannel (numbers : Numbers) (wave : WaveDockState) (index : ℕ)
    (setupSpec : ChannelSpec) : WaveDockState :=
  let currentLabel := (wave.buffer.channels.getD index default).spec.label
  let defaultSpec : ChannelSpec :=
    { setupSpec with
      label := ((wave.defaultChannelSpecs[index]?).map ChannelSpec.label).getD currentLabel }
  let effectiveSpec : ChannelSpec :=
    { ((wave.channelOverrides.getD index default).applyDisplay defaultSpec) with label := currentLabel }
  { wave with
    defaultChannelSpecs := wave.defaultChannelSpecs.set index defaultSpec
    buffer := wave.buffer.setChannelSpec numbers index effectiveSpec }

/-- Applies a function to the elements of a list with their positions, one after another. -/
def foldIndexed {σ β : Type} (f : σ → ℕ → β → σ) (state : σ) (items : List β) : σ :=
  items.zipIdx.foldl (fun state item => f state item.2 item.1) state

def applyImportedSetup (numbers : Numbers) (wave : WaveDockState)
    (setup : RawCapturePlotSetupEventData) : WaveDockState :=
  foldIndexed (applyImportedChannel numbers) wave
    (setup.channels.take (min setup.channels.length wave.buffer.channels.length))

/-- A channel gets its settings, with what the user has overridden. -/
def applyLiveChannel (numbers : Numbers) (wave : WaveDockState) (index : ℕ)
    (defaultSpec : ChannelSpec) : WaveDockState :=
  { wave with
    defaultChannelSpecs := wave.defaultChannelSpecs ++ [defaultSpec]
    buffer := wave.buffer.setChannelSpec numbers index
      ((wave.channelOverrides.getD index default).apply defaultSpec) }

/-- What the channels were before: the defaults of the last setup, if there was one. -/
def previousSpecs (wave : WaveDockState) : List ChannelSpec :=
  if wave.defaultChannelSpecs = [] then wave.buffer.channels.map ChannelBuffer.spec
  else wave.defaultChannelSpecs

def resizedOverrides (count : ℕ) (overrides : List ChannelTransformOverride) :
    List ChannelTransformOverride :=
  overrides.take count ++ List.replicate (count - overrides.length) default

/-- `clear`, `setViewConfig` and `configureChannels`, as a setup asks for them. -/
def prepareBuffer (wave : WaveDockState) (setup : RawCapturePlotSetupEventData) :
    OscilloscopeBuffer :=
  ((if setup.resetHistory then wave.buffer.clear else wave.buffer).setViewConfig
    { setup.view with displayFormula := wave.displayFormula }).configureChannels
      setup.channels.length

def applyLiveSetup (numbers : Numbers) (wave : WaveDockState)
    (setup : RawCapturePlotSetupEventData) : WaveDockState :=
  foldIndexed (applyLiveChannel numbers)
    { wave with
      buffer := wave.prepareBuffer setup
      defaultChannelSpecs := []
      channelOverrides :=
        resizedOverrides setup.channels.length
          (if sameChannelIdentity setup.channels wave.previousSpecs then wave.channelOverrides
          else []) }
    setup.channels

def applyPlotSetup (numbers : Numbers) (wave : WaveDockState)
    (setup : RawCapturePlotSetupEventData) : WaveDockState :=
  if wave.buffer.importedLabelsReadOnly then wave.applyImportedSetup numbers setup
  else wave.applyLiveSetup numbers setup

def applyScriptPlotSetups (numbers : Numbers) (wave : WaveDockState)
    (setups : List RawCapturePlotSetupEventData) : WaveDockState :=
  setups.foldl (applyPlotSetup numbers) wave

/-! ### Applying a batch -/

def appendRequest (sort : SampleOrder) (wave : WaveDockState) (append : ScriptPlotAppendRequest) :
    WaveDockState :=
  { wave with buffer := wave.buffer.append sort append.1 append.2 }

def appendScriptPlotRequestsToWave (sort : SampleOrder) (wave : WaveDockState)
    (requests : List ScriptPlotAppendRequest) : WaveDockState :=
  if wave.buffer.importedLabelsReadOnly then wave
  else (mergeNonEmptyScriptPlotAppends requests).foldl (appendRequest sort) wave

end WaveDockState

/-- The waveform with the appends that are still to be handed over. -/
structure ScriptPlots where
  wave : WaveDockState := {}
  pendingScriptPlotAppends : List ScriptPlotAppendRequest := []

/-- The plot outputs of one batch. -/
structure PlotOutputs where
  plotSetups : List RawCapturePlotSetupEventData := []
  plotAppends : List ScriptPlotAppendRequest := []

namespace ScriptPlots

/-- `enqueueScriptPlotAppends` and one pump. -/
def applyPlotAppends (sort : SampleOrder) (workerOutputQueueLimit maxPlotAppends : ℕ)
    (plots : ScriptPlots) (appends : List ScriptPlotAppendRequest) : ScriptPlots :=
  let drained := drainScriptPlotAppendsForPump maxPlotAppends
    (enqueueScriptPlotAppends workerOutputQueueLimit plots.pendingScriptPlotAppends appends)
  { wave := plots.wave.appendScriptPlotRequestsToWave sort drained.1
    pendingScriptPlotAppends := drained.2 }

def applyScriptPlotOutputs (numbers : Numbers) (sort : SampleOrder)
    (workerOutputQueueLimit maxPlotAppends : ℕ) (plots : ScriptPlots) (batch : PlotOutputs) :
    ScriptPlots :=
  let configured : ScriptPlots :=
    { plots with wave := plots.wave.applyScriptPlotSetups numbers batch.plotSetups }
  if configured.wave.buffer.importedLabelsReadOnly then configured
  else configured.applyPlotAppends sort workerOutputQueueLimit maxPlotAppends batch.plotAppends

end ScriptPlots

end ProtoScope.App
