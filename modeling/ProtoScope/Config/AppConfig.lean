/-
The configuration of the application, with the defaults its headers give.

Sizes are 64 bits wide, as on the platforms the application is built for.
-/
import ProtoScope.Plot.ChannelSpec
import ProtoScope.Transport.TransportTypes

namespace ProtoScope.Config

open ProtoScope.Plot (WaveDisplayFormula)
open ProtoScope.Transport (TransportKind)

/-! ### Waveforms -/

inductive WaveControlMode where
  | oscilloscope
  | legacyGlobal
deriving DecidableEq

inductive WaveGridDivisionReadoutMode where
  | displayValue
  | actualValue
  | rawValue
deriving DecidableEq

inductive WaveChannelScaleWheelAcceleration where
  | none
  | linear
  | log
deriving DecidableEq

inductive WaveChannelCardWidthMode where
  | fixed
  | adaptive
deriving DecidableEq

inductive WaveChannelDoubleClickAction where
  | resetAll
  | resetScaleOffset
  | resetScale
  | resetOffset
deriving DecidableEq

inductive WaveXAxisDoubleClickAction where
  | fitFullHistory
  | fitVisibleWindow
deriving DecidableEq

inductive WaveYAxisDoubleClickAction where
  | fitVisibleChannels
  | fitActiveChannel
deriving DecidableEq

inductive WaveHiddenChannelPolicy where
  | includeInDerivedViews
  | excludeFromDerivedViews
deriving DecidableEq

inductive WaveCursorExtremeSnapPolicy where
  | nearestWaveform
  | viewportZone
deriving DecidableEq

inductive WaveMouseYOffsetDragMode where
  | direct
  | shift
  | disabled
deriving DecidableEq

inductive WaveLegendOverlayOpenMode where
  | hover
  | doubleClick
  | disabled
deriving DecidableEq

inductive WaveDownsampleMode where
  | stableEdges
  | legacyUniform
deriving DecidableEq

inductive WaveBitDenseRenderMode where
  | compressedSteps
  | activityBand
deriving DecidableEq

inductive WaveResetViewportScaleMode where
  | preserve
  | protocolDefault
deriving DecidableEq

inductive WaveResetViewportAnchor where
  | waveStart
  | latest
deriving DecidableEq

inductive WaveResetViewportAutoFollowMode where
  | existing
  | enable
  | disable
deriving DecidableEq

inductive GuiWaveFullscreenMode where
  | focus
  | overlay
deriving DecidableEq

structure OverviewSelectionConfig where
  automatic : Bool := true
  fixedColor : Option (Float32 × Float32 × Float32) := none
  minAlpha : Option Float32 := none
  maxAlpha : Option Float32 := none

structure GuiWaveResetViewportConfig where
  applyOnPlotSetupReset : Bool := true
  applyOnManualClear : Bool := true
  applyOnRawImport : Bool := true
  xScale : WaveResetViewportScaleMode := .preserve
  yScale : WaveResetViewportScaleMode := .preserve
  xAnchor : WaveResetViewportAnchor := .waveStart
  autoFollow : WaveResetViewportAutoFollowMode := .existing

structure GuiWaveConfig where
  controlMode : WaveControlMode := .oscilloscope
  displayFormula : WaveDisplayFormula := .offsetThenScale
  gridDivisionReadoutMode : WaveGridDivisionReadoutMode := .displayValue
  channelScaleWheelEnabled : Bool := true
  channelScaleWheelAcceleration : WaveChannelScaleWheelAcceleration := .log
  channelCardWidthMode : WaveChannelCardWidthMode := .fixed
  channelDoubleClickAction : WaveChannelDoubleClickAction := .resetScaleOffset
  xAxisDoubleClickAction : WaveXAxisDoubleClickAction := .fitFullHistory
  yAxisDoubleClickAction : WaveYAxisDoubleClickAction := .fitVisibleChannels
  yAxisDoubleClickAdjustOffset : Bool := false
  hiddenChannelPolicy : WaveHiddenChannelPolicy := .excludeFromDerivedViews
  cursorExtremeSnapPolicy : WaveCursorExtremeSnapPolicy := .nearestWaveform
  mouseYOffsetDragMode : WaveMouseYOffsetDragMode := .direct
  legendOverlayOpenMode : WaveLegendOverlayOpenMode := .hover
  legendOverlayDoubleClickAutoCollapse : Bool := true
  interactionAnimationEnabled : Bool := true
  zoomSelectionAutoExit : Bool := false
  peakDetectDownsample : Bool := true
  downsampleMode : WaveDownsampleMode := .legacyUniform
  bitDenseRenderMode : WaveBitDenseRenderMode := .compressedSteps
  maxRenderPointsPerChannel : UInt64 := 1200
  maxRenderVertices : UInt64 := 60000
  downsampleStartMultiplier : Float := 2.0
  overviewMaxSamples : UInt64 := 20000
  overviewNormalizeChannels : Bool := false
  overviewShowBitChannels : Bool := false
  cursorAutoColor : Bool := true
  overviewSelection : OverviewSelectionConfig := {}
  minVisibleTimeSpan : Float := 0.001
  maxTotalSamples : UInt64 := 0
  channelCardFixedWidth : Float := 128.0
  channelCardAdaptiveRatio : Float := 0.22
  legendChannelNameMaxWidth : Float := 0.0
  verticalAutoFitMultiplier : Float := 1.25
  resetHistoryOnTimeReset : Bool := true
  showAxisLabels : Bool := false
  showChannelLegend : Bool := true
  showFftLegend : Bool := true
  followMeasurementCursorsOnScroll : Bool := false
  measurementVisibleWindowOnly : Bool := false
  measurementFollowRefreshIntervalMs : UInt64 := 200
  cursorFftHighlightRgba : Float32 × Float32 × Float32 × Float32 := (0.20, 0.55, 1.00, 0.16)
  fullscreenMode : GuiWaveFullscreenMode := .overlay
  resetViewport : GuiWaveResetViewportConfig := {}

/-! ### The user interface -/

inductive GuiRendererBackend where
  | openGL
  | d3d11
  | d3d11Warp
deriving DecidableEq

inductive GuiFontChineseGlyphRange where
  | simplifiedCommon
  | full
deriving DecidableEq

inductive TransferLogHistoryOnParsedSwitch where
  | ask
  | useHistory
  | skipHistory
deriving DecidableEq

inductive TransferLogHistoryScope where
  | retainedRows
  | retainedCapture
deriving DecidableEq

inductive ImportProtocolSource where
  | preferPackage
  | currentProtocol
deriving DecidableEq

structure GuiWindowConfig where
  title : String := "ProtoScope"
  width : Int32 := 1600
  height : Int32 := 900
  maximized : Bool := false

structure GuiLogHistoryConfig where
  transferRawLimit : UInt64 := 10000
  transferFrameLimit : UInt64 := 120000
  hostLimit : UInt64 := 5000
  scriptLimit : UInt64 := 5000
  requestTraceLimit : UInt64 := 5000

structure GuiRawCaptureConfig where
  liveLimitBytes : UInt64 := 64 * 1024 * 1024
  recordingQueueLimitBytes : UInt64 := 256 * 1024 * 1024

structure GuiRealtimeBacklogConfig where
  mode : String := "responsive"
  rxChunkBytesPerPump : UInt64 := 4096
  transferFrameRowsPerPump : UInt64 := 2000
  plotAppendsPerPump : UInt64 := 128
  rawFirstBacklogWarnBytes : UInt64 := 32 * 1024 * 1024
  derivedBacklogDegradeEnabled : Bool := true
  discardBacklogOnDisconnect : Bool := false
  pumpMinIntervalMs : Float := 1.0

structure GuiElfSymbolComboConfig where
  limit : UInt64 := 10
  debounceMs : Int32 := 300
  autoRefreshSelectedAddress : Bool := true
  autoRefreshEmitOnControl : Bool := false

structure GuiInteractionFeedbackConfig where
  enabled : Bool := true
  statusDurationMs : UInt64 := 2000

structure DataExportConfig where
  valid : Bool := false
  content : Int32 := 0
  format : Int32 := 0
  waveRange : Int32 := 0
  recordRange : Int32 := 0
  csvShape : Int32 := 0
  directory : String := ""

structure GuiFileDialogConfig where
  lastImportDirectory : String := ""
  lastExportDirectory : String := ""
  directories : Std.ExtTreeMap String String := ∅

structure GuiConfig where
  importProtocolSource : ImportProtocolSource := .preferPackage
  fileDialogs : GuiFileDialogConfig := {}
  lastDataExport : DataExportConfig := {}
  theme : String := "professional_dark"
  window : GuiWindowConfig := {}
  rendererBackend : GuiRendererBackend := .openGL
  interactionFeedback : GuiInteractionFeedbackConfig := {}
  wave : GuiWaveConfig := {}
  fontChineseGlyphRange : GuiFontChineseGlyphRange := .simplifiedCommon
  logHistory : GuiLogHistoryConfig := {}
  rawCapture : GuiRawCaptureConfig := {}
  realtimeBacklog : GuiRealtimeBacklogConfig := {}
  elfSymbolCombo : GuiElfSymbolComboConfig := {}
  showAppHeader : Bool := false
  luaDockLayoutDebug : Bool := false
  luaDockRenderCopyMode : Bool := true
  sendHistoryLimit : UInt64 := 20
  replayRawHistoryOnSchemaSwitch : Bool := false
  historyOnParsedSwitch : TransferLogHistoryOnParsedSwitch := .ask
  historyScope : TransferLogHistoryScope := .retainedRows

/-! ### Performance -/

/-- The budgets the user has set, which no scale recomputes. -/
structure PerformanceExplicitOverrides where
  receiveTransportReadBufferBytes : Bool := false
  workerRxQueueLimitBytes : Bool := false
  workerMemoryBudgetBytes : Bool := false
  workerOutputQueueLimit : Bool := false
  workerBatchBytes : Bool := false
  workerOutputFlushBudgetMs : Bool := false
  realtimeBacklogRxChunkBytesPerPump : Bool := false
  realtimeBacklogTransferFrameRowsPerPump : Bool := false
  realtimeBacklogPlotAppendsPerPump : Bool := false
  realtimeBacklogRawFirstBacklogWarnBytes : Bool := false

structure AdaptivePerformanceConfig where
  enabled : Bool := false
  maxMultiplier : Float := 1.0

structure PerformanceConfig where
  scale : Float := 1.0
  adaptive : AdaptivePerformanceConfig := {}
  explicitOverrides : PerformanceExplicitOverrides := {}

/-! ### Protocols, scripts and logs -/

inductive LogLevel where
  | trace
  | debug
  | info
  | warn
  | error
deriving DecidableEq

structure AppLoggingConfig where
  level : LogLevel := .info
  filePath : String := ""
  payloadPreviewEnabled : Bool := false
  payloadPreviewMaxBytes : UInt64 := 64
  maxFileSizeBytes : UInt64 := 5 * 1024 * 1024
  maxFiles : UInt64 := 3

structure AppRuntimeConfig where
  language : String := "zh-CN"
  fpsLimit : UInt32 := 60
  idleRender : String := "dirty_only"
  autoSaveEnabled : Bool := false
  autoSaveIntervalMs : UInt64 := 5000
  configHotReloadEnabled : Bool := false

structure ProtocolTxConfig where
  sendTimeoutMs : UInt64 := 1000
  requestTimeoutMs : UInt64 := 1000
  maxPending : UInt64 := 64
  overflowPolicy : String := "reject_new"
  overflowNotify : String := "popup_once"

structure ProtocolConfig where
  rootDir : String := "protocols/templates"
  selectedDir : String := "protocols/templates/default_protocol"
  tx : ProtocolTxConfig := {}

structure ReceiveConfig where
  nearOverflowThreshold : Float := 0.8
  popupEnabled : Bool := true
  transportReadBufferBytes : UInt64 := 4096

structure ExecutionConfig where
  loadTimeoutMs : UInt64 := 5000
  callbackTimeoutMs : UInt64 := 500

/-- The intervals are in milliseconds, the age in microseconds. -/
structure StorageConfig where
  queueBytes : UInt64 := 32 * 1024 * 1024
  batchRows : UInt64 := 1000
  batchInterval : Int64 := 100
  kvValueBytes : UInt64 := 256 * 1024
  kvTotalBytes : UInt64 := 8 * 1024 * 1024
  kvDepth : UInt64 := 16
  recordMaxBytes : UInt64 := 10 * 1024 * 1024 * 1024
  maxVolumeBytes : UInt64 := 256 * 1024 * 1024
  recordMaxAge : Int64 := 24 * 30 * 3600000000
  maintenanceInterval : Int64 := 1000

structure FileIoConfig where
  enabled : Bool := true
  allowProtocolDir : Bool := true
  allowDialogPaths : Bool := true
  extraAllowedRoots : List String := []
  maxOpenFiles : UInt64 := 8
  defaultChunkBytes : UInt64 := 65536
  maxChunkBytes : UInt64 := 1048576
  maxFileSizeBytes : UInt64 := 1073741824
  maxWriteFileSizeBytes : UInt64 := 1073741824
  dialogEnabled : Bool := true
  dialogRememberLastDir : Bool := true
  sendFileDefaultChunkBytes : UInt64 := 65536
  sendFileMaxInflightChunks : UInt64 := 2

structure ScriptingConfig where
  execution : ExecutionConfig := {}
  storageRootDir : String := ""
  storage : StorageConfig := {}
  fileIo : FileIoConfig := {}
  pipelineWorkerThreads : Option UInt64 := none
  workerEnabled : Bool := true
  workerRxQueueLimitBytes : UInt64 := 64 * 1024 * 1024
  workerMemoryBudgetBytes : UInt64 := 256 * 1024 * 1024
  workerMemoryBudgetAvailableRatio : Float := 0.0
  workerOutputQueueLimit : UInt64 := 65536
  workerBatchBytes : UInt64 := 8192
  workerBackpressureEnabled : Bool := true
  workerBackpressureHighWatermark : Float := 0.5
  workerBackpressureLowWatermark : Float := 0.3
  workerOutputFlushBudgetMs : Float := 2.0
  drainRequestOutputsUnbounded : Bool := false

/-! ### Transports -/

structure TcpClientConfig where
  host : String := "127.0.0.1"
  port : UInt16 := 9000
  readBufferBytes : UInt64 := 64 * 1024

structure TcpServerConfig where
  bindAddress : String := "0.0.0.0"
  port : UInt16 := 9000
  rejectNewConnection : Bool := true
  readBufferBytes : UInt64 := 64 * 1024

structure SerialConfig where
  portName : String := "COM1"
  baudRate : UInt32 := 115200
  dataBits : UInt32 := 8
  parity : String := "none"
  stopBits : String := "one"
  flowControl : String := "none"
  readBufferBytes : UInt64 := 64 * 1024

structure UdpPeerConfig where
  bindAddress : String := "0.0.0.0"
  bindPort : UInt16 := 9001
  remoteHost : String := "127.0.0.1"
  remotePort : UInt16 := 9000
  readBufferBytes : UInt64 := 64 * 1024

/-- The settings of the communication dock.  What the dock shows of a running connection is
left out. -/
structure CommDockState where
  kind : TransportKind := .tcpClient
  tcpClient : TcpClientConfig := {}
  tcpServer : TcpServerConfig := {}
  serial : SerialConfig := {}
  udpPeer : UdpPeerConfig := {}

structure AppConfig where
  performance : PerformanceConfig := {}
  app : AppRuntimeConfig := {}
  gui : GuiConfig := {}
  protocol : ProtocolConfig := {}
  receive : ReceiveConfig := {}
  scripting : ScriptingConfig := {}
  logging : AppLoggingConfig := {}
  communication : CommDockState := {}
  configPath : String := "config/protoscope.yaml"

end ProtoScope.Config
