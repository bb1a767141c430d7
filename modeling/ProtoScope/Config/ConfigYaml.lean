/-
How a configuration is written as YAML and read from it.

One family of functions writes the sections and another reads them.  A performance budget
that the user has not set is left out of the document and recomputed from the scale.  The
budgets are computed in `long double`, whose width the platform decides, so its products are
a parameter.
-/
import ProtoScope.Config.ConfigStore
import ProtoScope.Config.Yaml

namespace ProtoScope.Config

open ProtoScope.Plot (WaveDisplayFormula zeroDouble one)
open ProtoScope.Transport (TransportKind)

/-! ### Names -/

instance : YamlEnum LogLevel where
  names := [(.trace, "trace"), (.debug, "debug"), (.info, "info"), (.warn, "warn"),
    (.error, "error")]
  otherwise := "info"
  lookup_name value _ := by cases value <;> rfl

instance : YamlEnum TransferLogHistoryOnParsedSwitch where
  names := [(.ask, "ask"), (.useHistory, "use_history"), (.skipHistory, "skip_history")]
  otherwise := "ask"
  lookup_name value _ := by cases value <;> rfl

instance : YamlEnum TransferLogHistoryScope where
  names := [(.retainedRows, "retained_rows"), (.retainedCapture, "retained_capture")]
  otherwise := "retained_rows"
  lookup_name value _ := by cases value <;> rfl

instance : YamlEnum WaveControlMode where
  names := [(.legacyGlobal, "legacy_global"), (.oscilloscope, "oscilloscope")]
  otherwise := "oscilloscope"
  lookup_name value _ := by cases value <;> rfl

instance : YamlEnum WaveDisplayFormula where
  names := [(.scaleThenOffset, "scale_then_offset"), (.offsetThenScale, "offset_then_scale")]
  otherwise := "offset_then_scale"
  lookup_name value _ := by cases value <;> rfl

instance : YamlEnum WaveGridDivisionReadoutMode where
  names := [(.displayValue, "display_value"), (.actualValue, "actual_value"),
    (.rawValue, "raw_value")]
  otherwise := "display_value"
  lookup_name value _ := by cases value <;> rfl

instance : YamlEnum WaveChannelScaleWheelAcceleration where
  names := [(.none, "none"), (.linear, "linear"), (.log, "log")]
  otherwise := "log"
  lookup_name value _ := by cases value <;> rfl

instance : YamlEnum WaveChannelCardWidthMode where
  names := [(.fixed, "fixed"), (.adaptive, "adaptive")]
  otherwise := "fixed"
  lookup_name value _ := by cases value <;> rfl

instance : YamlEnum WaveChannelDoubleClickAction where
  names := [(.resetAll, "reset_all"), (.resetScaleOffset, "reset_scale_offset"),
    (.resetScale, "reset_scale"), (.resetOffset, "reset_offset")]
  otherwise := "reset_scale_offset"
  lookup_name value _ := by cases value <;> rfl

instance : YamlEnum WaveXAxisDoubleClickAction where
  names := [(.fitFullHistory, "fit_full_history"), (.fitVisibleWindow, "fit_visible_window")]
  otherwise := "fit_full_history"
  lookup_name value _ := by cases value <;> rfl

instance : YamlEnum WaveYAxisDoubleClickAction where
  names := [(.fitVisibleChannels, "fit_visible_channels"),
    (.fitActiveChannel, "fit_active_channel")]
  otherwise := "fit_visible_channels"
  lookup_name value _ := by cases value <;> rfl

instance : YamlEnum WaveHiddenChannelPolicy where
  names := [(.includeInDerivedViews, "include_hidden"), (.excludeFromDerivedViews, "visible_only")]
  otherwise := "include_hidden"
  lookup_name value _ := by cases value <;> rfl

instance : YamlEnum WaveCursorExtremeSnapPolicy where
  names := [(.nearestWaveform, "nearest_waveform"), (.viewportZone, "viewport_zone")]
  otherwise := "nearest_waveform"
  lookup_name value _ := by cases value <;> rfl

instance : YamlEnum WaveMouseYOffsetDragMode where
  names := [(.direct, "direct"), (.shift, "shift"), (.disabled, "disabled")]
  otherwise := "direct"
  lookup_name value _ := by cases value <;> rfl

instance : YamlEnum WaveResetViewportScaleMode where
  names := [(.preserve, "preserve"), (.protocolDefault, "protocol_default")]
  otherwise := "preserve"
  lookup_name value _ := by cases value <;> rfl

instance : YamlEnum WaveResetViewportAnchor where
  names := [(.waveStart, "wave_start"), (.latest, "latest")]
  otherwise := "wave_start"
  lookup_name value _ := by cases value <;> rfl

instance : YamlEnum WaveResetViewportAutoFollowMode where
  names := [(.existing, "existing"), (.enable, "enable"), (.disable, "disable")]
  otherwise := "existing"
  lookup_name value _ := by cases value <;> rfl

instance : YamlEnum WaveLegendOverlayOpenMode where
  names := [(.hover, "hover"), (.doubleClick, "double_click"), (.disabled, "disabled")]
  otherwise := "hover"
  lookup_name value _ := by cases value <;> rfl

instance : YamlEnum GuiWaveFullscreenMode where
  names := [(.focus, "focus"), (.overlay, "overlay")]
  otherwise := "overlay"
  lookup_name value _ := by cases value <;> rfl

instance : YamlEnum GuiFontChineseGlyphRange where
  names := [(.simplifiedCommon, "simplified_common"), (.full, "full")]
  otherwise := "simplified_common"
  lookup_name value _ := by cases value <;> rfl

instance : YamlEnum GuiRendererBackend where
  names := [(.openGL, "opengl"), (.d3d11, "d3d11"), (.d3d11Warp, "d3d11_warp")]
  otherwise := "opengl"
  lookup_name value _ := by cases value <;> rfl

instance : YamlEnum TransportKind where
  names := [(.tcpClient, "tcp_client"), (.tcpServer, "tcp_server"), (.serial, "serial"),
    (.udpPeer, "udp_peer")]
  otherwise := "tcp_client"
  lookup_name value _ := by cases value <;> rfl

def parseLogLevel (value : String) : LogLevel :=
  if value = "warn" ∨ value = "warning" then .warn else lookupEnum value .info

/-- `normalizeRendererBackendText` -/
def normalizeRendererBackendText (text : String) : String :=
  text.map fun ch => if ch = '-' then '_' else ch.toLower

def parseGuiRendererBackend (value : String) : GuiRendererBackend :=
  lookupEnum (normalizeRendererBackendText value) .openGL

/-! ### Performance budgets -/

/-- The arithmetic of `long double` on this platform. -/
structure LongDouble where
  /-- `std::round(static_cast<long double>(base) * scale)`, if it is finite -/
  product : UInt64 → Float → Option ℕ
  product_one : ∀ base : UInt64, base < 2 ^ 53 → product base one = some base.toNat
  /-- `static_cast<long double>(flush) * 1000 >= 2^64` -/
  flushOverflows : Float → Bool
  flushOverflows_default : flushOverflows 2.0 = false
  /-- `std::nextafter(static_cast<double>(2^64 / 1000), 0.0)` -/
  largestFlush : Float

/-- `std::numeric_limits<std::size_t>::max()` -/
def sizeMax : UInt64 := 18446744073709551615

/-- A default budget times the scale. -/
def LongDouble.scaledBudget (longDouble : LongDouble) (base : UInt64) (scale : Float) : UInt64 :=
  match longDouble.product base scale with
  | none => sizeMax
  | some scaled =>
    if 2 ^ 64 ≤ scaled then sizeMax
    else if base = 0 then 0
    else max 1 (.ofNat scaled)

/-- The flush budget within its bounds; `fallback` is what not-a-number becomes. -/
def LongDouble.clampFlush (longDouble : LongDouble) (flush fallback : Float) : Float :=
  if !flush.isFinite || flush.lt zeroDouble || longDouble.flushOverflows flush then
    if flush.isNaN then fallback
    else if flush.lt zeroDouble then zeroDouble
    else longDouble.largestFlush
  else flush

/-- A budget that is not set by the user is computed anew. -/
def recomputed {α : Type} (explicitOverride : Bool) (value scaled : α) : α :=
  if explicitOverride then value else scaled

/-- The scale the budgets are computed with. -/
def PerformanceConfig.budgetScale (performance : PerformanceConfig) : Float :=
  if performance.adaptive.enabled then one else performance.scale

def AppConfig.withBudgets (longDouble : LongDouble) (config : AppConfig) : AppConfig :=
  let defaults : AppConfig := {}
  let scale := config.performance.budgetScale
  let flags := config.performance.explicitOverrides
  let size explicitOverride value base :=
    recomputed explicitOverride value (longDouble.scaledBudget base scale)
  { config with
    receive := {
      config.receive with
      transportReadBufferBytes := size flags.receiveTransportReadBufferBytes
        config.receive.transportReadBufferBytes defaults.receive.transportReadBufferBytes }
    scripting := {
      config.scripting with
      workerRxQueueLimitBytes := size flags.workerRxQueueLimitBytes
        config.scripting.workerRxQueueLimitBytes defaults.scripting.workerRxQueueLimitBytes
      workerMemoryBudgetBytes := size flags.workerMemoryBudgetBytes
        config.scripting.workerMemoryBudgetBytes defaults.scripting.workerMemoryBudgetBytes
      workerOutputQueueLimit := size flags.workerOutputQueueLimit
        config.scripting.workerOutputQueueLimit defaults.scripting.workerOutputQueueLimit
      workerBatchBytes := size flags.workerBatchBytes
        config.scripting.workerBatchBytes defaults.scripting.workerBatchBytes
      workerOutputFlushBudgetMs := longDouble.clampFlush
        (recomputed flags.workerOutputFlushBudgetMs config.scripting.workerOutputFlushBudgetMs
          (defaults.scripting.workerOutputFlushBudgetMs * scale))
        defaults.scripting.workerOutputFlushBudgetMs }
    gui := {
      config.gui with
      realtimeBacklog := {
        config.gui.realtimeBacklog with
        rxChunkBytesPerPump := size flags.realtimeBacklogRxChunkBytesPerPump
          config.gui.realtimeBacklog.rxChunkBytesPerPump
          defaults.gui.realtimeBacklog.rxChunkBytesPerPump
        transferFrameRowsPerPump := size flags.realtimeBacklogTransferFrameRowsPerPump
          config.gui.realtimeBacklog.transferFrameRowsPerPump
          defaults.gui.realtimeBacklog.transferFrameRowsPerPump
        plotAppendsPerPump := size flags.realtimeBacklogPlotAppendsPerPump
          config.gui.realtimeBacklog.plotAppendsPerPump
          defaults.gui.realtimeBacklog.plotAppendsPerPump
        rawFirstBacklogWarnBytes := size flags.realtimeBacklogRawFirstBacklogWarnBytes
          config.gui.realtimeBacklog.rawFirstBacklogWarnBytes
          defaults.gui.realtimeBacklog.rawFirstBacklogWarnBytes } } }

/-- As the loader and the writer call it: what overflows is clamped. -/
def recomputePerformanceDefaults (longDouble : LongDouble) (config : AppConfig) :
    Except String AppConfig :=
  if !config.performance.scale.isFinite || config.performance.scale.le zeroDouble then
    .error "performance.scale: 必须为有限正数"
  else .ok (config.withBudgets longDouble)

def normalizePerformanceScale (scale : Float) : Float :=
  if scale.isFinite && zeroDouble.lt scale then scale else one

/-- `std::clamp` -/
def clampDouble (value lower upper : Float) : Float :=
  if value.lt lower then lower else if upper.lt value then upper else value

def normalizeAdaptiveMaxMultiplier (multiplier : Float) : Float :=
  if !multiplier.isFinite || multiplier.le zeroDouble then one
  else clampDouble multiplier 0.25 4.0

def applyPerformanceScale (longDouble : LongDouble) (config : AppConfig) :
    Except String AppConfig :=
  recomputePerformanceDefaults longDouble
    { config with
      performance := {
        config.performance with
        scale := normalizePerformanceScale config.performance.scale } }

/-- `readPerformanceSize`, `readPerformanceDouble`: the budget and whether it is set. -/
def readPerformance {α : Type} [YamlValue α] (node : Option YamlNode) (key : String) (value : α)
    (explicitOverride : Bool) : Except String (α × Bool) := do
  if ← hasScalar node key then
    return (← readScalar node key value, true)
  else return (value, explicitOverride)

/-- `std::abs(value - scaledDefault) > 1e-12` -/
def doubleChanged (value scaledDefault : Float) : Bool :=
  Float.lt 1e-12 (value - scaledDefault).abs

/-- `writePerformanceScalar` for sizes -/
def writePerformanceSize (key : String) (value scaledDefault : UInt64) (explicitOverride : Bool) :
    List (String × YamlNode) :=
  entryIf (explicitOverride || value != scaledDefault) key (yaml value)

/-- `writePerformanceScalar` for doubles -/
def writePerformanceDouble (key : String) (value scaledDefault : Float) (explicitOverride : Bool) :
    List (String × YamlNode) :=
  entryIf (explicitOverride || doubleChanged value scaledDefault) key (yaml value)

/-! ### Colours -/

/-- `std::lround` of a number between 0 and 255. -/
def lroundByte (value : Float32) : ℕ :=
  if Float32.le 0.5 (value - Float32.ofNat value.toUInt8.toNat) then value.toUInt8.toNat + 1
  else value.toUInt8.toNat

def clampFloat (value lower upper : Float32) : Float32 :=
  if value.lt lower then lower else if upper.lt value then upper else value

/-- The byte a colour component is written as. -/
def colorByte (component : Float32) : ℕ := lroundByte (clampFloat component 0 1 * 255)

/-- The component a byte is read as. -/
def colorComponent (byte : ℕ) : Float32 := Float32.ofNat byte / 255

/-- `"0123456789ABCDEF"` -/
def hexDigits : List Char :=
  ['0', '1', '2', '3', '4', '5', '6', '7', '8', '9', 'A', 'B', 'C', 'D', 'E', 'F']

def hexDigit (digit : ℕ) : Char := hexDigits.getD digit '0'

def hexByte (byte : ℕ) : List Char := [hexDigit (byte / 16), hexDigit (byte % 16)]

def colorText (color : Float32 × Float32 × Float32) : String :=
  .ofList ('#' :: (hexByte (colorByte color.1) ++ hexByte (colorByte color.2.1) ++
    hexByte (colorByte color.2.2)))

/-- The value of a digit, in either case. -/
def hexValue (digit : Char) : Option ℕ :=
  if '0' ≤ digit ∧ digit ≤ '9' then some (digit.toNat - '0'.toNat)
  else if 'a' ≤ digit ∧ digit ≤ 'f' then some (digit.toNat - 'a'.toNat + 10)
  else if 'A' ≤ digit ∧ digit ≤ 'F' then some (digit.toNat - 'A'.toNat + 10)
  else none

def readColorByte (high low : Char) : Option Float32 := do
  return colorComponent (16 * (← hexValue high) + (← hexValue low))

def readColorDigits : List Char → Option (Float32 × Float32 × Float32)
  | [mark, r₁, r₂, g₁, g₂, b₁, b₂] =>
    if mark = '#' then do
      return (← readColorByte r₁ r₂, ← readColorByte g₁ g₂, ← readColorByte b₁ b₂)
    else none
  | _ => none

/-! ### Writing -/

def writePerformanceConfig (config : AppConfig) : YamlNode :=
  .map [
    ("scale", yaml (normalizePerformanceScale config.performance.scale)),
    ("adaptive", .map [
      ("enabled", yaml config.performance.adaptive.enabled),
      ("max_multiplier",
        yaml (normalizeAdaptiveMaxMultiplier config.performance.adaptive.maxMultiplier))])]

def writeAppConfig (config : AppConfig) : YamlNode :=
  .map [
    ("language", yaml config.app.language),
    ("fps_limit", yaml config.app.fpsLimit),
    ("idle_render", yaml config.app.idleRender),
    ("auto_save", .map [
      ("enabled", yaml config.app.autoSaveEnabled),
      ("interval_ms", yaml config.app.autoSaveIntervalMs)]),
    ("config_hot_reload", .map [("enabled", yaml config.app.configHotReloadEnabled)])]

def writeOverviewSelection (selection : OverviewSelectionConfig) : YamlNode :=
  .map (("mode", yaml (if selection.automatic then "auto" else "fixed")) ::
    ((selection.minAlpha.toList.map fun alpha => ("min_alpha", yaml alpha)) ++
      (selection.maxAlpha.toList.map fun alpha => ("max_alpha", yaml alpha)) ++
      selection.fixedColor.toList.map fun color => ("fixed_color", yaml (colorText color))))

def writeResetViewport (policy : GuiWaveResetViewportConfig) : YamlNode :=
  .map [
    ("apply_on_plot_setup_reset", yaml policy.applyOnPlotSetupReset),
    ("apply_on_manual_clear", yaml policy.applyOnManualClear),
    ("apply_on_raw_import", yaml policy.applyOnRawImport),
    ("x_scale", yaml (enumToText policy.xScale)),
    ("y_scale", yaml (enumToText policy.yScale)),
    ("x_anchor", yaml (enumToText policy.xAnchor)),
    ("auto_follow", yaml (enumToText policy.autoFollow))]

/-- `makeFloat4Node` -/
def makeFloat4Node (values : Float32 × Float32 × Float32 × Float32) : YamlNode :=
  .sequence [yaml values.1, yaml values.2.1, yaml values.2.2.1, yaml values.2.2.2]

def writeGuiWaveConfig (wave : GuiWaveConfig) : YamlNode :=
  .map [
    ("control_mode", yaml (enumToText wave.controlMode)),
    ("display_formula", yaml (enumToText wave.displayFormula)),
    ("grid_division_readout_mode", yaml (enumToText wave.gridDivisionReadoutMode)),
    ("channel_scale_wheel", .map [
      ("enabled", yaml wave.channelScaleWheelEnabled),
      ("acceleration", yaml (enumToText wave.channelScaleWheelAcceleration))]),
    ("channel_card_width_mode", yaml (enumToText wave.channelCardWidthMode)),
    ("channel_double_click_action", yaml (enumToText wave.channelDoubleClickAction)),
    ("x_axis_double_click_action", yaml (enumToText wave.xAxisDoubleClickAction)),
    ("y_axis_double_click_action", yaml (enumToText wave.yAxisDoubleClickAction)),
    ("y_axis_double_click_adjust_offset", yaml wave.yAxisDoubleClickAdjustOffset),
    ("hidden_channel_policy", yaml (enumToText wave.hiddenChannelPolicy)),
    ("cursor_extreme_snap_policy", yaml (enumToText wave.cursorExtremeSnapPolicy)),
    ("mouse_y_offset_drag_mode", yaml (enumToText wave.mouseYOffsetDragMode)),
    ("legend_overlay_open_mode", yaml (enumToText wave.legendOverlayOpenMode)),
    ("legend_overlay_double_click_auto_collapse", yaml wave.legendOverlayDoubleClickAutoCollapse),
    ("interaction_animation_enabled", yaml wave.interactionAnimationEnabled),
    ("zoom_selection_auto_exit", yaml wave.zoomSelectionAutoExit),
    ("peak_detect_downsample", yaml wave.peakDetectDownsample),
    ("downsample_mode",
      yaml (if wave.downsampleMode = .legacyUniform then "legacy_uniform" else "stable_edges")),
    ("bit_dense_render_mode",
      yaml (if wave.bitDenseRenderMode = .activityBand then "activity_band" else "compressed_steps")),
    ("channel_card_fixed_width", yaml wave.channelCardFixedWidth),
    ("channel_card_adaptive_ratio", yaml wave.channelCardAdaptiveRatio),
    ("legend_channel_name_max_width", yaml wave.legendChannelNameMaxWidth),
    ("vertical_auto_fit_multiplier", yaml wave.verticalAutoFitMultiplier),
    ("max_render_points_per_channel", yaml wave.maxRenderPointsPerChannel),
    ("max_render_vertices", yaml wave.maxRenderVertices),
    ("downsample_start_multiplier", yaml wave.downsampleStartMultiplier),
    ("overview_max_samples", yaml wave.overviewMaxSamples),
    ("overview_normalize_channels", yaml wave.overviewNormalizeChannels),
    ("overview_show_bit_channels", yaml wave.overviewShowBitChannels),
    ("cursor_auto_color", yaml wave.cursorAutoColor),
    ("overview_selection", writeOverviewSelection wave.overviewSelection),
    ("max_total_samples", yaml wave.maxTotalSamples),
    ("min_visible_time_span", yaml wave.minVisibleTimeSpan),
    ("reset_history_on_time_reset", yaml wave.resetHistoryOnTimeReset),
    ("show_axis_labels", yaml wave.showAxisLabels),
    ("show_channel_legend", yaml wave.showChannelLegend),
    ("show_fft_legend", yaml wave.showFftLegend),
    ("follow_measurement_cursors_on_scroll", yaml wave.followMeasurementCursorsOnScroll),
    ("measurement_visible_window_only", yaml wave.measurementVisibleWindowOnly),
    ("measurement_follow_refresh_interval_ms", yaml wave.measurementFollowRefreshIntervalMs),
    ("cursor_fft_highlight_rgba", makeFloat4Node wave.cursorFftHighlightRgba),
    ("fullscreen_mode", yaml (enumToText wave.fullscreenMode)),
    ("reset_viewport", writeResetViewport wave.resetViewport)]

def writeRealtimeBacklog (backlog scaled : GuiRealtimeBacklogConfig)
    (flags : PerformanceExplicitOverrides) : YamlNode :=
  .map (("mode", yaml backlog.mode) ::
    (writePerformanceSize "rx_chunk_bytes_per_pump" backlog.rxChunkBytesPerPump
        scaled.rxChunkBytesPerPump flags.realtimeBacklogRxChunkBytesPerPump ++
      writePerformanceSize "transfer_frame_rows_per_pump" backlog.transferFrameRowsPerPump
        scaled.transferFrameRowsPerPump flags.realtimeBacklogTransferFrameRowsPerPump ++
      writePerformanceSize "plot_appends_per_pump" backlog.plotAppendsPerPump
        scaled.plotAppendsPerPump flags.realtimeBacklogPlotAppendsPerPump ++
      writePerformanceSize "raw_first_backlog_warn_bytes" backlog.rawFirstBacklogWarnBytes
        scaled.rawFirstBacklogWarnBytes flags.realtimeBacklogRawFirstBacklogWarnBytes ++
      [("derived_backlog_degrade_enabled", yaml backlog.derivedBacklogDegradeEnabled),
        ("discard_backlog_on_disconnect", yaml backlog.discardBacklogOnDisconnect),
        ("pump_min_interval_ms", yaml backlog.pumpMinIntervalMs)]))

def writeGuiConfig (config scaledDefaults : AppConfig) : YamlNode :=
  .map [
    ("theme", yaml config.gui.theme),
    ("renderer_backend", yaml (enumToText config.gui.rendererBackend)),
    ("window", .map [
      ("title", yaml config.gui.window.title),
      ("width", yaml config.gui.window.width),
      ("height", yaml config.gui.window.height),
      ("maximized", yaml config.gui.window.maximized)]),
    ("font", .map [("chinese_glyph_range", yaml (enumToText config.gui.fontChineseGlyphRange))]),
    ("wave", writeGuiWaveConfig config.gui.wave),
    ("interaction_feedback", .map [
      ("enabled", yaml config.gui.interactionFeedback.enabled),
      ("status_duration_ms", yaml config.gui.interactionFeedback.statusDurationMs)]),
    ("log_history", .map [
      ("transfer_raw_limit", yaml config.gui.logHistory.transferRawLimit),
      ("transfer_frame_limit", yaml config.gui.logHistory.transferFrameLimit),
      ("host_limit", yaml config.gui.logHistory.hostLimit),
      ("script_limit", yaml config.gui.logHistory.scriptLimit),
      ("request_trace_limit", yaml config.gui.logHistory.requestTraceLimit)]),
    ("last_data_export", .map [
      ("valid", yaml config.gui.lastDataExport.valid),
      ("content", yaml config.gui.lastDataExport.content),
      ("format", yaml config.gui.lastDataExport.format),
      ("wave_range", yaml config.gui.lastDataExport.waveRange),
      ("record_range", yaml config.gui.lastDataExport.recordRange),
      ("csv_shape", yaml config.gui.lastDataExport.csvShape),
      ("directory", yaml config.gui.lastDataExport.directory)]),
    ("data_import", .map [
      ("protocol_source",
        yaml (if config.gui.importProtocolSource = .currentProtocol then "current_protocol"
          else "prefer_package"))]),
    ("file_dialogs", .map [
      ("last_import_directory", yaml config.gui.fileDialogs.lastImportDirectory),
      ("last_export_directory", yaml config.gui.fileDialogs.lastExportDirectory),
      ("directories",
        .map (config.gui.fileDialogs.directories.toList.map fun entry => (entry.1, yaml entry.2)))]),
    ("raw_capture", .map [
      ("live_limit_bytes", yaml config.gui.rawCapture.liveLimitBytes),
      ("recording_queue_limit_bytes", yaml config.gui.rawCapture.recordingQueueLimitBytes)]),
    ("transfer_log", .map [
      ("replay_raw_history_on_schema_switch", yaml config.gui.replayRawHistoryOnSchemaSwitch),
      ("history_on_parsed_switch", yaml (enumToText config.gui.historyOnParsedSwitch)),
      ("history_scope", yaml (enumToText config.gui.historyScope))]),
    ("realtime_backlog", writeRealtimeBacklog config.gui.realtimeBacklog
      scaledDefaults.gui.realtimeBacklog config.performance.explicitOverrides),
    ("show_app_header", yaml config.gui.showAppHeader),
    ("send_history_limit", yaml config.gui.sendHistoryLimit),
    ("lua_dock_layout_debug", yaml config.gui.luaDockLayoutDebug),
    ("lua_dock_render_copy_mode", yaml config.gui.luaDockRenderCopyMode),
    ("elf_symbol_combo", .map [
      ("limit", yaml config.gui.elfSymbolCombo.limit),
      ("debounce_ms", yaml config.gui.elfSymbolCombo.debounceMs),
      ("auto_refresh_selected_address", yaml config.gui.elfSymbolCombo.autoRefreshSelectedAddress),
      ("auto_refresh_emit_on_control", yaml config.gui.elfSymbolCombo.autoRefreshEmitOnControl)])]

def writeProtocolConfig (config : AppConfig) : YamlNode :=
  .map [
    ("root_dir", yaml config.protocol.rootDir),
    ("selected_dir", yaml config.protocol.selectedDir),
    ("tx", .map [
      ("send_timeout_ms", yaml config.protocol.tx.sendTimeoutMs),
      ("request_timeout_ms", yaml config.protocol.tx.requestTimeoutMs),
      ("max_pending", yaml config.protocol.tx.maxPending),
      ("overflow_policy", yaml config.protocol.tx.overflowPolicy),
      ("overflow_notify", yaml config.protocol.tx.overflowNotify)])]

def writeReceiveConfig (config scaledDefaults : AppConfig) : YamlNode :=
  .map (("stream_buffer", .map [
      ("near_overflow_threshold", yaml config.receive.nearOverflowThreshold),
      ("popup_enabled", yaml config.receive.popupEnabled)]) ::
    writePerformanceSize "transport_read_buffer_bytes" config.receive.transportReadBufferBytes
      scaledDefaults.receive.transportReadBufferBytes
      config.performance.explicitOverrides.receiveTransportReadBufferBytes)

/-- `std::chrono::duration_cast<std::chrono::hours>(storage.recordMaxAge).count() / 24` -/
def retentionDays (recordMaxAge : Int64) : Int64 := recordMaxAge / 3600000000 / 24

def writeScriptingStorage (scripting : ScriptingConfig) : YamlNode :=
  .map [
    ("root_dir", yaml scripting.storageRootDir),
    ("queue_bytes", yaml scripting.storage.queueBytes),
    ("batch_rows", yaml scripting.storage.batchRows),
    ("batch_interval_ms", yaml scripting.storage.batchInterval),
    ("max_record_bytes", yaml scripting.storage.recordMaxBytes),
    ("max_volume_bytes", yaml scripting.storage.maxVolumeBytes),
    ("retention_days", yaml (retentionDays scripting.storage.recordMaxAge)),
    ("maintenance_interval_ms", yaml scripting.storage.maintenanceInterval),
    ("kv_value_bytes", yaml scripting.storage.kvValueBytes),
    ("kv_total_bytes", yaml scripting.storage.kvTotalBytes),
    ("kv_depth", yaml scripting.storage.kvDepth)]

def writeScriptingWorker (scripting scaled : ScriptingConfig)
    (flags : PerformanceExplicitOverrides) : YamlNode :=
  .map (("enabled", yaml scripting.workerEnabled) ::
    (writePerformanceSize "rx_queue_limit_bytes" scripting.workerRxQueueLimitBytes
        scaled.workerRxQueueLimitBytes flags.workerRxQueueLimitBytes ++
      writePerformanceSize "memory_budget_bytes" scripting.workerMemoryBudgetBytes
        scaled.workerMemoryBudgetBytes flags.workerMemoryBudgetBytes ++
      [("memory_budget_available_ratio", yaml scripting.workerMemoryBudgetAvailableRatio)] ++
      writePerformanceSize "output_queue_limit" scripting.workerOutputQueueLimit
        scaled.workerOutputQueueLimit flags.workerOutputQueueLimit ++
      writePerformanceSize "batch_bytes" scripting.workerBatchBytes
        scaled.workerBatchBytes flags.workerBatchBytes ++
      [("backpressure_enabled", yaml scripting.workerBackpressureEnabled),
        ("backpressure_rx_queue_high_watermark", yaml scripting.workerBackpressureHighWatermark),
        ("backpressure_rx_queue_low_watermark", yaml scripting.workerBackpressureLowWatermark)] ++
      writePerformanceDouble "output_flush_budget_ms" scripting.workerOutputFlushBudgetMs
        scaled.workerOutputFlushBudgetMs flags.workerOutputFlushBudgetMs))

def writeScriptingFileIo (fileIo : FileIoConfig) : YamlNode :=
  .map [
    ("enabled", yaml fileIo.enabled),
    ("allow_protocol_dir", yaml fileIo.allowProtocolDir),
    ("allow_dialog_paths", yaml fileIo.allowDialogPaths),
    ("extra_allowed_roots", .sequence (fileIo.extraAllowedRoots.map yaml)),
    ("max_open_files", yaml fileIo.maxOpenFiles),
    ("default_chunk_bytes", yaml fileIo.defaultChunkBytes),
    ("max_chunk_bytes", yaml fileIo.maxChunkBytes),
    ("max_file_size_bytes", yaml fileIo.maxFileSizeBytes),
    ("max_write_file_size_bytes", yaml fileIo.maxWriteFileSizeBytes),
    ("dialog", .map [
      ("enabled", yaml fileIo.dialogEnabled),
      ("remember_last_dir", yaml fileIo.dialogRememberLastDir)]),
    ("send_file", .map [
      ("default_chunk_bytes", yaml fileIo.sendFileDefaultChunkBytes),
      ("max_inflight_chunks", yaml fileIo.sendFileMaxInflightChunks)])]

def writeScriptingConfig (config scaledDefaults : AppConfig) : YamlNode :=
  .map ((config.scripting.pipelineWorkerThreads.toList.map fun threads =>
      ("pipeline", .map [("worker_threads", yaml threads)])) ++ [
    ("execution", .map [
      ("load_timeout_ms", yaml config.scripting.execution.loadTimeoutMs),
      ("callback_timeout_ms", yaml config.scripting.execution.callbackTimeoutMs)]),
    ("storage", writeScriptingStorage config.scripting),
    ("worker", writeScriptingWorker config.scripting scaledDefaults.scripting
      config.performance.explicitOverrides),
    ("file_io", writeScriptingFileIo config.scripting.fileIo)])

def writeLoggingConfig (config : AppConfig) : YamlNode :=
  .map (("level", yaml (enumToText config.logging.level)) ::
    (entryIf (config.logging.filePath != "") "file_path" (yaml config.logging.filePath) ++ [
      ("payload_preview", .map [
        ("enabled", yaml config.logging.payloadPreviewEnabled),
        ("max_bytes", yaml config.logging.payloadPreviewMaxBytes)]),
      ("max_file_size_bytes", yaml config.logging.maxFileSizeBytes),
      ("max_files", yaml config.logging.maxFiles)]))

def writeCommunicationConfig (config : AppConfig) : YamlNode :=
  .map [
    ("kind", yaml (enumToText config.communication.kind)),
    ("tcp_client", .map [
      ("host", yaml config.communication.tcpClient.host),
      ("port", yaml config.communication.tcpClient.port)]),
    ("tcp_server", .map [
      ("bind_address", yaml config.communication.tcpServer.bindAddress),
      ("port", yaml config.communication.tcpServer.port),
      ("reject_new_connection", yaml config.communication.tcpServer.rejectNewConnection)]),
    ("serial", .map [
      ("port_name", yaml config.communication.serial.portName),
      ("baud_rate", yaml config.communication.serial.baudRate),
      ("data_bits", yaml config.communication.serial.dataBits),
      ("parity", yaml config.communication.serial.parity),
      ("stop_bits", yaml config.communication.serial.stopBits),
      ("flow_control", yaml config.communication.serial.flowControl)]),
    ("udp_peer", .map [
      ("bind_address", yaml config.communication.udpPeer.bindAddress),
      ("bind_port", yaml config.communication.udpPeer.bindPort),
      ("remote_host", yaml config.communication.udpPeer.remoteHost),
      ("remote_port", yaml config.communication.udpPeer.remotePort)])]

/-- The defaults a configuration's budgets are compared with. -/
def scaleDefaults (longDouble : LongDouble) (config defaults : AppConfig) :
    Except String AppConfig :=
  if config.performance.adaptive.enabled then .ok defaults
  else
    applyPerformanceScale longDouble
      { defaults with
        performance := {
          defaults.performance with
          scale := normalizePerformanceScale config.performance.scale
          adaptive := config.performance.adaptive } }

/-- `buildConfigYamlRoot` -/
def buildConfigYamlRoot (longDouble : LongDouble) (config defaults : AppConfig) :
    Except String YamlNode := do
  let scaledDefaults ← scaleDefaults longDouble config defaults
  return .map [
    ("performance", writePerformanceConfig config),
    ("app", writeAppConfig config),
    ("gui", writeGuiConfig config scaledDefaults),
    ("protocol", writeProtocolConfig config),
    ("receive", writeReceiveConfig config scaledDefaults),
    ("scripting", writeScriptingConfig config scaledDefaults),
    ("logging", writeLoggingConfig config),
    ("communication", writeCommunicationConfig config)]

end ProtoScope.Config
