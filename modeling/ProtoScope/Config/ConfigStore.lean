/-
How a configuration reaches the docks and comes back from them.

`applyToDock` writes the settings of a configuration into the docks; `captureFromDock` reads
the settings the docks own, over a configuration that keeps the rest.  What the docks hold
besides settings is left out, and so is what the waveform buffer does with its formula.
-/
import ProtoScope.Config.AppConfig

namespace ProtoScope.Config

open ProtoScope.Plot (WaveDisplayFormula zeroDouble one)

/-! ### The docks -/

structure LuaDockState where
  scriptPath : String := "protocols/templates/default_protocol/main.lua"
  protocolDir : String := "protocols/templates/default_protocol"
  protocolName : String := "default_protocol"
  protocolRootDir : String := "protocols/templates"
  protocolDirOptions : List String := []

structure ConfigDockState where
  autoSaveEnabled : Bool := false
  autoSaveIntervalMs : UInt64 := 5000
  configHotReloadEnabled : Bool := false
  fpsLimit : UInt32 := 60
  idleRender : String := "dirty_only"
  loadedFromPath : String := "config/protoscope.yaml"
  luaDockLayoutDebug : Bool := false
  luaDockRenderCopyMode : Bool := true

structure WaveChannelScaleWheelState where
  channelIndex : Option UInt64 := none
  direction : Int32 := 0
  continuousStepCount : UInt64 := 0
  fractionalDelta : Float := 0.0
  lastEventTimeSec : Float := 0.0

structure WaveViewState where
  showAxisLabels : Bool := false
  showChannelLegend : Bool := true
  showFftLegend : Bool := true
  cursorAutoColor : Bool := true
  followMeasurementCursorsOnScroll : Bool := false
  measurementVisibleWindowOnly : Bool := false
  measurementFollowRefreshIntervalMs : UInt64 := 200
  interactionAnimationEnabled : Bool := true
  effectiveInteractionAnimationEnabled : Bool := true
  zoomSelectionAutoExit : Bool := false
  peakDetectDownsample : Bool := true
  bitDenseRenderMode : WaveBitDenseRenderMode := .compressedSteps
  resetViewportApplyOnPlotSetupReset : Bool := true
  resetViewportApplyOnManualClear : Bool := true
  resetViewportApplyOnRawImport : Bool := true
  defaultViewportXScale : WaveResetViewportScaleMode := .preserve
  defaultViewportYScale : WaveResetViewportScaleMode := .preserve
  defaultViewportXAnchor : WaveResetViewportAnchor := .waveStart
  defaultViewportAutoFollow : WaveResetViewportAutoFollowMode := .existing
  maxRenderPointsPerChannel : UInt64 := 1200
  maxRenderVertices : UInt64 := 60000
  overviewMaxSamples : UInt64 := 20000
  overviewNormalizeChannels : Bool := false
  overviewShowBitChannels : Bool := false
  overviewSelection : OverviewSelectionConfig := {}
  mouseYOffsetDragMode : WaveMouseYOffsetDragMode := .direct
  controlMode : WaveControlMode := .oscilloscope
  displayFormula : WaveDisplayFormula := .offsetThenScale
  gridDivisionReadoutMode : WaveGridDivisionReadoutMode := .displayValue
  channelScaleWheelEnabled : Bool := true
  channelScaleWheelAcceleration : WaveChannelScaleWheelAcceleration := .log
  channelScaleWheelState : WaveChannelScaleWheelState := {}
  channelCardWidthMode : WaveChannelCardWidthMode := .fixed
  channelDoubleClickAction : WaveChannelDoubleClickAction := .resetScaleOffset
  xAxisDoubleClickAction : WaveXAxisDoubleClickAction := .fitFullHistory
  yAxisDoubleClickAction : WaveYAxisDoubleClickAction := .fitVisibleChannels
  yAxisDoubleClickAdjustOffset : Bool := false
  hiddenChannelPolicy : WaveHiddenChannelPolicy := .excludeFromDerivedViews
  minVisibleTimeSpan : Float := 0.001
  downsampleStartMultiplier : Float := 2.0
  downsampleMode : WaveDownsampleMode := .legacyUniform
  channelCardFixedWidth : Float := 128.0
  channelCardAdaptiveRatio : Float := 0.22
  legendChannelNameMaxWidth : Float := 0.0
  verticalAutoFitMultiplier : Float := 1.25
  cursorFftHighlightRgba : Float32 × Float32 × Float32 × Float32 := (0.20, 0.55, 1.00, 0.16)
  cursorExtremeSnapPolicy : WaveCursorExtremeSnapPolicy := .nearestWaveform

structure WaveLegendOverlayState where
  expanded : Bool := false
  hoverFloating : Bool := false
  hoverInteractionLocked : Bool := false
  openMode : WaveLegendOverlayOpenMode := .hover
  doubleClickAutoCollapse : Bool := true
  hoverCloseRemainingSec : Float32 := 0.0

structure WaveDockState where
  view : WaveViewState := {}
  legendOverlay : WaveLegendOverlayState := {}
  /-- the formula of the buffer's view -/
  bufferDisplayFormula : WaveDisplayFormula := .offsetThenScale

structure DockStore where
  commState : CommDockState := {}
  luaState : LuaDockState := {}
  configState : ConfigDockState := {}
  waveState : WaveDockState := {}

/-! ### Protocol directories -/

/-- What the file system says about paths. -/
structure FileSystem where
  exist : String → Bool
  isRelative : String → Bool
  join : String → String → String
  filename : String → String
  parentPath : String → String
  /-- the directories in a directory -/
  directories : String → List String
  normalizeTextPath : String → String

structure ConfigStore where
  files : FileSystem
  defaultConfigPath : String
  defaultProtocolDir : String

/-- `value > 0.0 ? value : fallback` -/
def positiveOrFallback (value fallback : Float) : Float :=
  if zeroDouble.lt value then value else fallback

theorem positiveOrFallback_eq {value : Float} (h : zeroDouble.lt value = true) (fallback : Float) :
    positiveOrFallback value fallback = value :=
  if_pos h

def positiveOrZero (value : Float) : Float :=
  if value.isFinite && zeroDouble.lt value then value else zeroDouble

/-- `std::max` -/
def maxDouble (a b : Float) : Float := if a.lt b then b else a

namespace ConfigStore

def mainLuaPath (store : ConfigStore) (protocolDir : String) : String :=
  store.files.join protocolDir "main.lua"

def protocolName (store : ConfigStore) (protocolDir : String) : String :=
  if store.files.filename protocolDir = "" then "default_protocol"
  else store.files.filename protocolDir

def protocolEntryExists (store : ConfigStore) (protocolDir : String) : Bool :=
  store.files.exist (store.mainLuaPath protocolDir)

def scanProtocolDirectories (store : ConfigStore) (rootDir : String) : List String :=
  (((store.files.directories rootDir).filter store.protocolEntryExists).map
    store.files.normalizeTextPath).mergeSort fun a b => !decide (b < a)

/-- The first protocol of the root directory, or the default one. -/
def firstProtocolDir (store : ConfigStore) (rootDir : String) : String :=
  (store.scanProtocolDirectories rootDir).head?.getD store.defaultProtocolDir

/-- The directory a selection names: itself, or below the root, or the first one there. -/
def normalizeProtocolDir (store : ConfigStore) (rootDir dir : String) : String :=
  if store.protocolEntryExists (if dir = "" then store.defaultProtocolDir else dir) then
    if dir = "" then store.defaultProtocolDir else dir
  else if dir ≠ "" ∧ store.files.isRelative dir = true ∧ rootDir ≠ "" then
    if store.protocolEntryExists (store.files.join rootDir (store.files.filename dir)) then
      store.files.join rootDir (store.files.filename dir)
    else if store.protocolEntryExists (store.files.join rootDir dir) then
      store.files.join rootDir dir
    else store.firstProtocolDir rootDir
  else store.firstProtocolDir rootDir

/-! ### To the docks -/

/-- The transports; the peer of UDP is not among them. -/
def applyCommunication (communication : CommDockState) (comm : CommDockState) : CommDockState :=
  { comm with
    kind := communication.kind
    tcpClient := communication.tcpClient
    tcpServer := communication.tcpServer
    serial := communication.serial }

def applyProtocol (store : ConfigStore) (protocol : ProtocolConfig) (lua : LuaDockState) :
    LuaDockState :=
  let protocolDir := store.normalizeProtocolDir protocol.rootDir protocol.selectedDir
  { lua with
    protocolRootDir := protocol.rootDir
    protocolDirOptions := store.scanProtocolDirectories protocol.rootDir
    protocolDir := store.files.normalizeTextPath protocolDir
    protocolName := store.protocolName protocolDir
    scriptPath := store.files.normalizeTextPath (store.mainLuaPath protocolDir) }

def applyConfigState (store : ConfigStore) (config : AppConfig) (configState : ConfigDockState) :
    ConfigDockState :=
  { configState with
    autoSaveEnabled := config.app.autoSaveEnabled
    autoSaveIntervalMs := config.app.autoSaveIntervalMs
    configHotReloadEnabled := config.app.configHotReloadEnabled
    fpsLimit := config.app.fpsLimit
    idleRender := config.app.idleRender
    luaDockLayoutDebug := config.gui.luaDockLayoutDebug
    luaDockRenderCopyMode := config.gui.luaDockRenderCopyMode
    loadedFromPath :=
      if config.configPath = "" then store.files.normalizeTextPath store.defaultConfigPath
      else config.configPath }

def applyWaveView (gui : GuiConfig) (view : WaveViewState) : WaveViewState :=
  { view with
    controlMode := gui.wave.controlMode
    displayFormula := gui.wave.displayFormula
    gridDivisionReadoutMode := gui.wave.gridDivisionReadoutMode
    channelScaleWheelEnabled := gui.wave.channelScaleWheelEnabled
    channelScaleWheelAcceleration := gui.wave.channelScaleWheelAcceleration
    channelScaleWheelState := {}
    channelCardWidthMode := gui.wave.channelCardWidthMode
    channelDoubleClickAction := gui.wave.channelDoubleClickAction
    xAxisDoubleClickAction := gui.wave.xAxisDoubleClickAction
    yAxisDoubleClickAction := gui.wave.yAxisDoubleClickAction
    yAxisDoubleClickAdjustOffset := gui.wave.yAxisDoubleClickAdjustOffset
    mouseYOffsetDragMode := gui.wave.mouseYOffsetDragMode
    zoomSelectionAutoExit := gui.wave.zoomSelectionAutoExit
    peakDetectDownsample := gui.wave.peakDetectDownsample
    downsampleMode := gui.wave.downsampleMode
    bitDenseRenderMode := gui.wave.bitDenseRenderMode
    maxRenderPointsPerChannel := gui.wave.maxRenderPointsPerChannel
    maxRenderVertices := gui.wave.maxRenderVertices
    downsampleStartMultiplier := maxDouble gui.wave.downsampleStartMultiplier one
    overviewMaxSamples := gui.wave.overviewMaxSamples
    overviewNormalizeChannels := gui.wave.overviewNormalizeChannels
    overviewShowBitChannels := gui.wave.overviewShowBitChannels
    cursorAutoColor := gui.wave.cursorAutoColor
    overviewSelection := gui.wave.overviewSelection
    minVisibleTimeSpan := gui.wave.minVisibleTimeSpan
    channelCardFixedWidth := positiveOrFallback gui.wave.channelCardFixedWidth 128.0
    channelCardAdaptiveRatio := positiveOrFallback gui.wave.channelCardAdaptiveRatio 0.22
    legendChannelNameMaxWidth := positiveOrZero gui.wave.legendChannelNameMaxWidth
    verticalAutoFitMultiplier := positiveOrFallback gui.wave.verticalAutoFitMultiplier 1.25
    hiddenChannelPolicy := gui.wave.hiddenChannelPolicy
    cursorExtremeSnapPolicy := gui.wave.cursorExtremeSnapPolicy
    interactionAnimationEnabled := gui.wave.interactionAnimationEnabled
    effectiveInteractionAnimationEnabled :=
      gui.interactionFeedback.enabled && gui.wave.interactionAnimationEnabled
    showAxisLabels := gui.wave.showAxisLabels
    showChannelLegend := gui.wave.showChannelLegend
    showFftLegend := gui.wave.showFftLegend
    followMeasurementCursorsOnScroll := gui.wave.followMeasurementCursorsOnScroll
    measurementVisibleWindowOnly := gui.wave.measurementVisibleWindowOnly
    measurementFollowRefreshIntervalMs := gui.wave.measurementFollowRefreshIntervalMs
    cursorFftHighlightRgba := gui.wave.cursorFftHighlightRgba
    resetViewportApplyOnPlotSetupReset := gui.wave.resetViewport.applyOnPlotSetupReset
    resetViewportApplyOnManualClear := gui.wave.resetViewport.applyOnManualClear
    resetViewportApplyOnRawImport := gui.wave.resetViewport.applyOnRawImport
    defaultViewportXScale := gui.wave.resetViewport.xScale
    defaultViewportYScale := gui.wave.resetViewport.yScale
    defaultViewportXAnchor := gui.wave.resetViewport.xAnchor
    defaultViewportAutoFollow := gui.wave.resetViewport.autoFollow }

def applyLegendOverlay (wave : GuiWaveConfig) (overlay : WaveLegendOverlayState) :
    WaveLegendOverlayState :=
  { overlay with
    openMode := wave.legendOverlayOpenMode
    doubleClickAutoCollapse := wave.legendOverlayDoubleClickAutoCollapse
    expanded :=
      if wave.legendOverlayOpenMode ≠ .doubleClick then false else overlay.expanded
    hoverFloating := false
    hoverInteractionLocked := false
    hoverCloseRemainingSec := 0.0 }

def applyToDock (store : ConfigStore) (config : AppConfig) (dock : DockStore) : DockStore where
  commState := applyCommunication config.communication dock.commState
  luaState := store.applyProtocol config.protocol dock.luaState
  configState := store.applyConfigState config dock.configState
  waveState := {
    view := applyWaveView config.gui dock.waveState.view
    legendOverlay := applyLegendOverlay config.gui.wave dock.waveState.legendOverlay
    bufferDisplayFormula := config.gui.wave.displayFormula }

/-! ### From the docks -/

def captureWave (waveState : WaveDockState) (wave : GuiWaveConfig) : GuiWaveConfig :=
  { wave with
    controlMode := waveState.view.controlMode
    displayFormula := waveState.view.displayFormula
    gridDivisionReadoutMode := waveState.view.gridDivisionReadoutMode
    channelScaleWheelEnabled := waveState.view.channelScaleWheelEnabled
    channelScaleWheelAcceleration := waveState.view.channelScaleWheelAcceleration
    channelCardWidthMode := waveState.view.channelCardWidthMode
    channelDoubleClickAction := waveState.view.channelDoubleClickAction
    xAxisDoubleClickAction := waveState.view.xAxisDoubleClickAction
    yAxisDoubleClickAction := waveState.view.yAxisDoubleClickAction
    yAxisDoubleClickAdjustOffset := waveState.view.yAxisDoubleClickAdjustOffset
    mouseYOffsetDragMode := waveState.view.mouseYOffsetDragMode
    zoomSelectionAutoExit := waveState.view.zoomSelectionAutoExit
    peakDetectDownsample := waveState.view.peakDetectDownsample
    downsampleMode := waveState.view.downsampleMode
    bitDenseRenderMode := waveState.view.bitDenseRenderMode
    maxRenderPointsPerChannel := waveState.view.maxRenderPointsPerChannel
    maxRenderVertices := waveState.view.maxRenderVertices
    downsampleStartMultiplier := waveState.view.downsampleStartMultiplier
    overviewMaxSamples := waveState.view.overviewMaxSamples
    overviewNormalizeChannels := waveState.view.overviewNormalizeChannels
    overviewShowBitChannels := waveState.view.overviewShowBitChannels
    cursorAutoColor := waveState.view.cursorAutoColor
    overviewSelection := waveState.view.overviewSelection
    minVisibleTimeSpan := waveState.view.minVisibleTimeSpan
    channelCardFixedWidth := waveState.view.channelCardFixedWidth
    channelCardAdaptiveRatio := waveState.view.channelCardAdaptiveRatio
    legendChannelNameMaxWidth := positiveOrZero waveState.view.legendChannelNameMaxWidth
    verticalAutoFitMultiplier := waveState.view.verticalAutoFitMultiplier
    hiddenChannelPolicy := waveState.view.hiddenChannelPolicy
    cursorExtremeSnapPolicy := waveState.view.cursorExtremeSnapPolicy
    interactionAnimationEnabled := waveState.view.interactionAnimationEnabled
    showAxisLabels := waveState.view.showAxisLabels
    showChannelLegend := waveState.view.showChannelLegend
    showFftLegend := waveState.view.showFftLegend
    followMeasurementCursorsOnScroll := waveState.view.followMeasurementCursorsOnScroll
    measurementVisibleWindowOnly := waveState.view.measurementVisibleWindowOnly
    measurementFollowRefreshIntervalMs := waveState.view.measurementFollowRefreshIntervalMs
    cursorFftHighlightRgba := waveState.view.cursorFftHighlightRgba
    resetViewport := {
      applyOnPlotSetupReset := waveState.view.resetViewportApplyOnPlotSetupReset
      applyOnManualClear := waveState.view.resetViewportApplyOnManualClear
      applyOnRawImport := waveState.view.resetViewportApplyOnRawImport
      xScale := waveState.view.defaultViewportXScale
      yScale := waveState.view.defaultViewportYScale
      xAnchor := waveState.view.defaultViewportXAnchor
      autoFollow := waveState.view.defaultViewportAutoFollow }
    legendOverlayOpenMode := waveState.legendOverlay.openMode
    legendOverlayDoubleClickAutoCollapse := waveState.legendOverlay.doubleClickAutoCollapse }

/-- Only what the docks own is taken from them. -/
def captureFromDock (dock : DockStore) (config : AppConfig) : AppConfig :=
  { config with
    communication := dock.commState
    protocol := {
      config.protocol with
      rootDir := dock.luaState.protocolRootDir
      selectedDir := dock.luaState.protocolDir }
    app := {
      config.app with
      autoSaveEnabled := dock.configState.autoSaveEnabled
      autoSaveIntervalMs := dock.configState.autoSaveIntervalMs
      configHotReloadEnabled := dock.configState.configHotReloadEnabled
      fpsLimit := dock.configState.fpsLimit
      idleRender := dock.configState.idleRender }
    gui := {
      config.gui with
      luaDockLayoutDebug := dock.configState.luaDockLayoutDebug
      luaDockRenderCopyMode := dock.configState.luaDockRenderCopyMode
      wave := captureWave dock.waveState config.gui.wave }
    configPath := dock.configState.loadedFromPath }

end ConfigStore

end ProtoScope.Config
