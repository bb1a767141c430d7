/-
How a configuration is read from YAML.

Every section is loaded over what the configuration has so far: a key that is missing leaves
the value, a section that is missing leaves its values.  After all sections the budgets that
are not set are recomputed.  What the loader prints about a value it does not know is left
out.
-/
import ProtoScope.Config.ConfigYaml

namespace ProtoScope.Config

open ProtoScope.Plot (WaveDisplayFormula zeroDouble)

/-- `std::clamp` -/
def clamp {α : Type} [LT α] [DecidableLT α] (value lower upper : α) : α :=
  if value < lower then lower else if upper < value then upper else value

/-! ### Performance, application -/

def loadAdaptivePerformance (adaptive : AdaptivePerformanceConfig) (node : YamlNode) :
    Except String AdaptivePerformanceConfig := do
  let enabled ← readScalar (some node) "enabled" adaptive.enabled
  let maxMultiplier ← readScalar (some node) "max_multiplier" adaptive.maxMultiplier
  return { enabled := enabled, maxMultiplier := normalizeAdaptiveMaxMultiplier maxMultiplier }

def loadPerformance (performance : PerformanceConfig) (node : YamlNode) :
    Except String PerformanceConfig := do
  let scale ← readScalar (some node) "scale" performance.scale
  let adaptive ← whenDefined (← childNode (some node) "adaptive") performance.adaptive
    (loadAdaptivePerformance performance.adaptive)
  return { performance with scale := normalizePerformanceScale scale, adaptive := adaptive }

def loadPerformanceConfig (longDouble : LongDouble) (root : YamlNode) (config : AppConfig) :
    Except String AppConfig := do
  let performance ← whenDefined (← root.subscript "performance") config.performance
    (loadPerformance config.performance)
  if performance.adaptive.enabled then return { config with performance := performance }
  else applyPerformanceScale longDouble { config with performance := performance }

def loadAutoSave (app : AppRuntimeConfig) (node : YamlNode) : Except String AppRuntimeConfig := do
  let enabled ← readScalar (some node) "enabled" app.autoSaveEnabled
  let intervalMs ← readScalar (some node) "interval_ms" app.autoSaveIntervalMs
  return { app with autoSaveEnabled := enabled, autoSaveIntervalMs := intervalMs }

def loadConfigHotReload (app : AppRuntimeConfig) (node : YamlNode) :
    Except String AppRuntimeConfig := do
  let enabled ← readScalar (some node) "enabled" app.configHotReloadEnabled
  return { app with configHotReloadEnabled := enabled }

def loadAppConfig (root : YamlNode) (app : AppRuntimeConfig) : Except String AppRuntimeConfig := do
  let node ← root.subscript "app"
  let language ← readScalar node "language" app.language
  let fpsLimit ← readScalar node "fps_limit" app.fpsLimit
  let idleRender ← readScalar node "idle_render" app.idleRender
  let app := { app with language := language, fpsLimit := fpsLimit, idleRender := idleRender }
  let app ← whenDefined (← childNode node "auto_save") app (loadAutoSave app)
  whenDefined (← childNode node "config_hot_reload") app (loadConfigHotReload app)

/-! ### Waveforms -/

def loadChannelScaleWheel (wave : GuiWaveConfig) (node : YamlNode) :
    Except String GuiWaveConfig := do
  let enabled ← readScalar (some node) "enabled" wave.channelScaleWheelEnabled
  let acceleration ← readScalar (some node) "acceleration"
    (enumToText wave.channelScaleWheelAcceleration)
  return { wave with
    channelScaleWheelEnabled := enabled
    channelScaleWheelAcceleration := lookupEnum acceleration .log }

def loadResetViewport (policy : GuiWaveResetViewportConfig) (node : YamlNode) :
    Except String GuiWaveResetViewportConfig := do
  let applyOnPlotSetupReset ←
    readScalar (some node) "apply_on_plot_setup_reset" policy.applyOnPlotSetupReset
  let applyOnManualClear ← readScalar (some node) "apply_on_manual_clear" policy.applyOnManualClear
  let applyOnRawImport ← readScalar (some node) "apply_on_raw_import" policy.applyOnRawImport
  let xScale ← readEnum (some node) "x_scale" policy.xScale
  let yScale ← readEnum (some node) "y_scale" policy.yScale
  let xAnchor ← readEnum (some node) "x_anchor" policy.xAnchor
  let autoFollow ← readEnum (some node) "auto_follow" policy.autoFollow
  return {
    applyOnPlotSetupReset := applyOnPlotSetupReset
    applyOnManualClear := applyOnManualClear
    applyOnRawImport := applyOnRawImport
    xScale := xScale
    yScale := yScale
    xAnchor := xAnchor
    autoFollow := autoFollow }

/-- `readFloat4` -/
def readFloat4 (node : Option YamlNode) (key : String)
    (fallback : Float32 × Float32 × Float32 × Float32) :
    Except String (Float32 × Float32 × Float32 × Float32) :=
  match node with
  | some node => do
    match ← node.subscript key with
    | some (.sequence [first, second, third, fourth]) =>
      return (first.asOr fallback.1, second.asOr fallback.2.1, third.asOr fallback.2.2.1,
        fourth.asOr fallback.2.2.2)
    | _ => return fallback
  | none => .ok fallback

def selectionError (field : String) : String :=
  "gui.wave.overview_selection." ++ field ++ ": 非法字段或数值"

/-- An alpha between 0 and 1. -/
def readAlpha (key : String) (value : YamlNode) : Except String Float32 := do
  let alpha : Float32 ← value.as
  if !alpha.isFinite || alpha.lt 0 || Float32.lt 1 alpha then throw (selectionError key)
  return alpha

/-- One entry of `overview_selection`. -/
def readSelectionEntry (target : OverviewSelectionConfig) (key : String) (value : YamlNode) :
    Except String OverviewSelectionConfig :=
  if key = "mode" then do
    let mode : String ← value.as
    if mode = "auto" then return { target with automatic := true }
    else if mode = "fixed" then return { target with automatic := false }
    else throw (selectionError key)
  else if key = "fixed_color" then do
    let text : String ← value.as
    match readColorDigits text.toList with
    | some color => return { target with fixedColor := some color }
    | none => throw (selectionError key)
  else if key = "min_alpha" then do
    return { target with minAlpha := some (← readAlpha key value) }
  else if key = "max_alpha" then do
    return { target with maxAlpha := some (← readAlpha key value) }
  else .error (selectionError key)

/-- The loop over the entries, with the keys that have been seen. -/
def readSelectionEntries : List String → OverviewSelectionConfig → List (String × YamlNode) →
    Except String OverviewSelectionConfig
  | _, target, [] => .ok target
  | seen, target, (key, value) :: entries => do
    if seen.contains key then throw (selectionError key)
    let target ← readSelectionEntry target key value
    readSelectionEntries (seen ++ [key]) target entries

/-- The two alphas are in order. -/
def alphasInOrder (selection : OverviewSelectionConfig) : Bool :=
  match selection.minAlpha, selection.maxAlpha with
  | some least, some greatest => !greatest.lt least
  | _, _ => true

def loadOverviewSelection (selection : OverviewSelectionConfig) :
    YamlNode → Except String OverviewSelectionConfig
  | .map entries => do
    let target ← readSelectionEntries [] selection entries
    if !alphasInOrder target then throw (selectionError "min_alpha/max_alpha")
    return target
  | _ => .error (selectionError "mapping")

/-- How the channels and the axes answer to the mouse: the first half of
`loadGuiWaveConfig`. -/
def loadWaveInteraction (node : YamlNode) (wave : GuiWaveConfig) : Except String GuiWaveConfig := do
  let controlMode ← readEnum (some node) "control_mode" wave.controlMode
  let displayFormula ← readEnum (some node) "display_formula" wave.displayFormula
  let gridDivisionReadoutMode ←
    readEnum (some node) "grid_division_readout_mode" wave.gridDivisionReadoutMode
  let wave ← whenDefined (← childNode (some node) "channel_scale_wheel") wave
    (loadChannelScaleWheel wave)
  let channelCardWidthMode : String ← readScalar (some node) "channel_card_width_mode" "fixed"
  let channelDoubleClickAction ←
    readEnum (some node) "channel_double_click_action" wave.channelDoubleClickAction
  let xAxisDoubleClickAction ←
    readEnum (some node) "x_axis_double_click_action" wave.xAxisDoubleClickAction
  let yAxisDoubleClickAction ←
    readEnum (some node) "y_axis_double_click_action" wave.yAxisDoubleClickAction
  let yAxisDoubleClickAdjustOffset ←
    readScalar (some node) "y_axis_double_click_adjust_offset" wave.yAxisDoubleClickAdjustOffset
  let hiddenChannelPolicy ← readEnum (some node) "hidden_channel_policy" wave.hiddenChannelPolicy
  let cursorExtremeSnapPolicy ←
    readEnum (some node) "cursor_extreme_snap_policy" wave.cursorExtremeSnapPolicy
  let mouseYOffsetDragMode ←
    readEnum (some node) "mouse_y_offset_drag_mode" wave.mouseYOffsetDragMode
  let legendOverlayOpenMode ←
    readEnum (some node) "legend_overlay_open_mode" wave.legendOverlayOpenMode
  let legendOverlayDoubleClickAutoCollapse ← readScalar (some node)
    "legend_overlay_double_click_auto_collapse" wave.legendOverlayDoubleClickAutoCollapse
  let interactionAnimationEnabled ←
    readScalar (some node) "interaction_animation_enabled" wave.interactionAnimationEnabled
  let zoomSelectionAutoExit ←
    readScalar (some node) "zoom_selection_auto_exit" wave.zoomSelectionAutoExit
  let peakDetectDownsample ←
    readScalar (some node) "peak_detect_downsample" wave.peakDetectDownsample
  return { wave with
    controlMode := controlMode
    displayFormula := displayFormula
    gridDivisionReadoutMode := gridDivisionReadoutMode
    channelCardWidthMode := lookupEnum channelCardWidthMode .fixed
    channelDoubleClickAction := channelDoubleClickAction
    xAxisDoubleClickAction := xAxisDoubleClickAction
    yAxisDoubleClickAction := yAxisDoubleClickAction
    yAxisDoubleClickAdjustOffset := yAxisDoubleClickAdjustOffset
    hiddenChannelPolicy := hiddenChannelPolicy
    cursorExtremeSnapPolicy := cursorExtremeSnapPolicy
    mouseYOffsetDragMode := mouseYOffsetDragMode
    legendOverlayOpenMode := legendOverlayOpenMode
    legendOverlayDoubleClickAutoCollapse := legendOverlayDoubleClickAutoCollapse
    interactionAnimationEnabled := interactionAnimationEnabled
    zoomSelectionAutoExit := zoomSelectionAutoExit
    peakDetectDownsample := peakDetectDownsample }

/-- How waveforms are drawn: the fields up to `overview_selection`. -/
def loadWaveRendering (node : YamlNode) (wave : GuiWaveConfig) : Except String GuiWaveConfig := do
  let downsampleMode : String ← readScalar (some node) "downsample_mode" "legacy_uniform"
  let bitDenseMode : String ← readScalar (some node) "bit_dense_render_mode" "compressed_steps"
  let maxRenderPointsPerChannel ←
    readScalar (some node) "max_render_points_per_channel" wave.maxRenderPointsPerChannel
  let maxRenderVertices ← readScalar (some node) "max_render_vertices" wave.maxRenderVertices
  let downsampleStartMultiplier ←
    readScalar (some node) "downsample_start_multiplier" wave.downsampleStartMultiplier
  let overviewMaxSamples ← readScalar (some node) "overview_max_samples" wave.overviewMaxSamples
  let overviewNormalizeChannels ←
    readScalar (some node) "overview_normalize_channels" wave.overviewNormalizeChannels
  let overviewShowBitChannels ←
    readScalar (some node) "overview_show_bit_channels" wave.overviewShowBitChannels
  let cursorAutoColor ← readScalar (some node) "cursor_auto_color" wave.cursorAutoColor
  let overviewSelection ← whenDefined (← node.subscript "overview_selection")
    wave.overviewSelection (loadOverviewSelection wave.overviewSelection)
  return { wave with
    downsampleMode := if downsampleMode = "stable_edges" then .stableEdges else .legacyUniform
    bitDenseRenderMode := if bitDenseMode = "activity_band" then .activityBand else .compressedSteps
    maxRenderPointsPerChannel := maxRenderPointsPerChannel
    maxRenderVertices := maxRenderVertices
    downsampleStartMultiplier := downsampleStartMultiplier
    overviewMaxSamples := overviewMaxSamples
    overviewNormalizeChannels := overviewNormalizeChannels
    overviewShowBitChannels := overviewShowBitChannels
    cursorAutoColor := cursorAutoColor
    overviewSelection := overviewSelection }

/-- The rest of `loadGuiWaveConfig`. -/
def loadWaveLayout (node : YamlNode) (wave : GuiWaveConfig) : Except String GuiWaveConfig := do
  let maxTotalSamples ← readScalar (some node) "max_total_samples" wave.maxTotalSamples
  let minVisibleTimeSpan ← readScalar (some node) "min_visible_time_span" wave.minVisibleTimeSpan
  let channelCardFixedWidth ←
    readScalar (some node) "channel_card_fixed_width" wave.channelCardFixedWidth
  let channelCardAdaptiveRatio ←
    readScalar (some node) "channel_card_adaptive_ratio" wave.channelCardAdaptiveRatio
  let legendChannelNameMaxWidth ←
    readScalar (some node) "legend_channel_name_max_width" wave.legendChannelNameMaxWidth
  let verticalAutoFitMultiplier ←
    readScalar (some node) "vertical_auto_fit_multiplier" wave.verticalAutoFitMultiplier
  let resetHistoryOnTimeReset ←
    readScalar (some node) "reset_history_on_time_reset" wave.resetHistoryOnTimeReset
  let showAxisLabels ← readScalar (some node) "show_axis_labels" wave.showAxisLabels
  let showChannelLegend ← readScalar (some node) "show_channel_legend" wave.showChannelLegend
  let showFftLegend ← readScalar (some node) "show_fft_legend" wave.showFftLegend
  let followMeasurementCursorsOnScroll ← readScalar (some node)
    "follow_measurement_cursors_on_scroll" wave.followMeasurementCursorsOnScroll
  let measurementVisibleWindowOnly ←
    readScalar (some node) "measurement_visible_window_only" wave.measurementVisibleWindowOnly
  let measurementFollowRefreshIntervalMs ← readScalar (some node)
    "measurement_follow_refresh_interval_ms" wave.measurementFollowRefreshIntervalMs
  let cursorFftHighlightRgba ←
    readFloat4 (some node) "cursor_fft_highlight_rgba" wave.cursorFftHighlightRgba
  let fullscreenMode ← readEnum (some node) "fullscreen_mode" wave.fullscreenMode
  let resetViewport ← whenDefined (← childNode (some node) "reset_viewport") wave.resetViewport
    (loadResetViewport wave.resetViewport)
  return { wave with
    maxTotalSamples := maxTotalSamples
    minVisibleTimeSpan := minVisibleTimeSpan
    channelCardFixedWidth := positiveOrFallback channelCardFixedWidth 128.0
    channelCardAdaptiveRatio := positiveOrFallback channelCardAdaptiveRatio 0.22
    legendChannelNameMaxWidth := positiveOrZero legendChannelNameMaxWidth
    verticalAutoFitMultiplier := positiveOrFallback verticalAutoFitMultiplier 1.25
    resetHistoryOnTimeReset := resetHistoryOnTimeReset
    showAxisLabels := showAxisLabels
    showChannelLegend := showChannelLegend
    showFftLegend := showFftLegend
    followMeasurementCursorsOnScroll := followMeasurementCursorsOnScroll
    measurementVisibleWindowOnly := measurementVisibleWindowOnly
    measurementFollowRefreshIntervalMs := measurementFollowRefreshIntervalMs
    cursorFftHighlightRgba := cursorFftHighlightRgba
    fullscreenMode := fullscreenMode
    resetViewport := resetViewport }

def loadGuiWaveConfig (node : YamlNode) (wave : GuiWaveConfig) : Except String GuiWaveConfig := do
  let wave ← loadWaveInteraction node wave
  let wave ← loadWaveRendering node wave
  loadWaveLayout node wave

/-! ### What is loaded beside the waveforms -/

def loadLogHistory (history : GuiLogHistoryConfig) (node : YamlNode) :
    Except String GuiLogHistoryConfig := do
  let transferRawLimit ← readScalar (some node) "transfer_raw_limit" history.transferRawLimit
  let transferFrameLimit ← readScalar (some node) "transfer_frame_limit" history.transferFrameLimit
  let hostLimit ← readScalar (some node) "host_limit" history.hostLimit
  let scriptLimit ← readScalar (some node) "script_limit" history.scriptLimit
  let requestTraceLimit ← readScalar (some node) "request_trace_limit" history.requestTraceLimit
  return {
    transferRawLimit := transferRawLimit
    transferFrameLimit := transferFrameLimit
    hostLimit := hostLimit
    scriptLimit := scriptLimit
    requestTraceLimit := requestTraceLimit }

def loadRawCapture (rawCapture : GuiRawCaptureConfig) (node : YamlNode) :
    Except String GuiRawCaptureConfig := do
  let liveLimitBytes ← readScalar (some node) "live_limit_bytes" rawCapture.liveLimitBytes
  let recordingQueueLimitBytes ←
    readScalar (some node) "recording_queue_limit_bytes" rawCapture.recordingQueueLimitBytes
  return { liveLimitBytes := liveLimitBytes, recordingQueueLimitBytes := recordingQueueLimitBytes }

/-- The budgets come with their flags. -/
def loadRealtimeBacklog (backlog : GuiRealtimeBacklogConfig) (flags : PerformanceExplicitOverrides)
    (node : YamlNode) : Except String (GuiRealtimeBacklogConfig × PerformanceExplicitOverrides) := do
  let mode ← readScalar (some node) "mode" backlog.mode
  let rxChunk ← readPerformance (some node) "rx_chunk_bytes_per_pump"
    backlog.rxChunkBytesPerPump flags.realtimeBacklogRxChunkBytesPerPump
  let frameRows ← readPerformance (some node) "transfer_frame_rows_per_pump"
    backlog.transferFrameRowsPerPump flags.realtimeBacklogTransferFrameRowsPerPump
  let plotAppends ← readPerformance (some node) "plot_appends_per_pump"
    backlog.plotAppendsPerPump flags.realtimeBacklogPlotAppendsPerPump
  let rawFirst ← readPerformance (some node) "raw_first_backlog_warn_bytes"
    backlog.rawFirstBacklogWarnBytes flags.realtimeBacklogRawFirstBacklogWarnBytes
  let degrade ←
    readScalar (some node) "derived_backlog_degrade_enabled" backlog.derivedBacklogDegradeEnabled
  let discard ←
    readScalar (some node) "discard_backlog_on_disconnect" backlog.discardBacklogOnDisconnect
  let interval ← readScalar (some node) "pump_min_interval_ms" backlog.pumpMinIntervalMs
  return (
    { mode := mode
      rxChunkBytesPerPump := rxChunk.1
      transferFrameRowsPerPump := frameRows.1
      plotAppendsPerPump := plotAppends.1
      rawFirstBacklogWarnBytes := rawFirst.1
      derivedBacklogDegradeEnabled := degrade
      discardBacklogOnDisconnect := discard
      pumpMinIntervalMs := interval },
    { flags with
      realtimeBacklogRxChunkBytesPerPump := rxChunk.2
      realtimeBacklogTransferFrameRowsPerPump := frameRows.2
      realtimeBacklogPlotAppendsPerPump := plotAppends.2
      realtimeBacklogRawFirstBacklogWarnBytes := rawFirst.2 })

/-- The fields that are loaded only if there is a `wave` section. -/
def loadGuiWaveScopedRuntimeConfig (node : Option YamlNode) (gui : GuiConfig)
    (flags : PerformanceExplicitOverrides) :
    Except String (GuiConfig × PerformanceExplicitOverrides) := do
  let logHistory ← whenDefined (← childNode node "log_history") gui.logHistory
    (loadLogHistory gui.logHistory)
  let rawCapture ← whenDefined (← childNode node "raw_capture") gui.rawCapture
    (loadRawCapture gui.rawCapture)
  let backlog ← whenDefined (← childNode node "realtime_backlog") (gui.realtimeBacklog, flags)
    (loadRealtimeBacklog gui.realtimeBacklog flags)
  let showAppHeader ← readScalar node "show_app_header" gui.showAppHeader
  let luaDockLayoutDebug ← readScalar node "lua_dock_layout_debug" gui.luaDockLayoutDebug
  let luaDockRenderCopyMode ← readScalar node "lua_dock_render_copy_mode" gui.luaDockRenderCopyMode
  let sendHistoryLimit ← readScalar node "send_history_limit" gui.sendHistoryLimit
  return (
    { gui with
      logHistory := logHistory
      rawCapture := rawCapture
      realtimeBacklog := backlog.1
      showAppHeader := showAppHeader
      luaDockLayoutDebug := luaDockLayoutDebug
      luaDockRenderCopyMode := luaDockRenderCopyMode
      sendHistoryLimit := sendHistoryLimit },
    backlog.2)

def loadWindow (window : GuiWindowConfig) (node : YamlNode) : Except String GuiWindowConfig := do
  let title ← readScalar (some node) "title" window.title
  let width ← readScalar (some node) "width" window.width
  let height ← readScalar (some node) "height" window.height
  let maximized ← readScalar (some node) "maximized" window.maximized
  return { title := title, width := width, height := height, maximized := maximized }

def loadFont (range : GuiFontChineseGlyphRange) (node : YamlNode) :
    Except String GuiFontChineseGlyphRange :=
  readEnum (some node) "chinese_glyph_range" range

def loadInteractionFeedback (feedback : GuiInteractionFeedbackConfig) (node : YamlNode) :
    Except String GuiInteractionFeedbackConfig := do
  let enabled ← readScalar (some node) "enabled" feedback.enabled
  let statusDurationMs ← readScalar (some node) "status_duration_ms" feedback.statusDurationMs
  return { enabled := enabled, statusDurationMs := statusDurationMs }

/-- A number of candidates is read as an `int`; what is not positive is passed over. -/
def loadElfSymbolCombo (combo : GuiElfSymbolComboConfig) (node : YamlNode) :
    Except String GuiElfSymbolComboConfig := do
  let limit ← readScalar (some node) "limit" combo.limit.toUInt32.toInt32
  let debounceMs ← readScalar (some node) "debounce_ms" combo.debounceMs
  let autoRefreshSelectedAddress ←
    readScalar (some node) "auto_refresh_selected_address" combo.autoRefreshSelectedAddress
  let autoRefreshEmitOnControl ←
    readScalar (some node) "auto_refresh_emit_on_control" combo.autoRefreshEmitOnControl
  return {
    limit := if 0 < limit then .ofNat limit.toInt.toNat else combo.limit
    debounceMs := if 0 < debounceMs then debounceMs else combo.debounceMs
    autoRefreshSelectedAddress := autoRefreshSelectedAddress
    autoRefreshEmitOnControl := autoRefreshEmitOnControl }

/-- The loop over the remembered directories. -/
def loadDirectories (directories : Std.ExtTreeMap String String) :
    List (String × YamlNode) → Except String (Std.ExtTreeMap String String)
  | [] => .ok directories
  | (key, node) :: entries => do
    let directory : String ← node.as
    loadDirectories (directories.insert key directory) entries

def loadDialogDirectories (directories : Std.ExtTreeMap String String) :
    Option YamlNode → Except String (Std.ExtTreeMap String String)
  | none => .ok directories
  | some .null => .ok directories
  | some (.map entries) => loadDirectories directories entries
  | some _ => .error "file_dialogs.directories 必须为映射"

/-- The directory of the last export is taken from `last_data_export` if the newer key is
missing. -/
def loadFileDialogs (fileDialogs : GuiFileDialogConfig) (dialogs lastExport : Option YamlNode) :
    Except String GuiFileDialogConfig := do
  let lastImportDirectory ← readScalar dialogs "last_import_directory" ""
  let exported ← readScalar lastExport "directory" ""
  let lastExportDirectory ← readScalar dialogs "last_export_directory" exported
  let directories ← loadDialogDirectories fileDialogs.directories
    (← childNode dialogs "directories")
  return {
    lastImportDirectory := lastImportDirectory
    lastExportDirectory := lastExportDirectory
    directories := directories }

/-- The choices of the last export name values of their enumerations. -/
def DataExportConfig.inRange (value : DataExportConfig) : Bool :=
  decide (0 ≤ value.content) && decide (value.content ≤ 3) && decide (0 ≤ value.format) &&
    decide (value.format ≤ 3) && decide (0 ≤ value.waveRange) && decide (value.waveRange ≤ 2) &&
    decide (0 ≤ value.recordRange) && decide (value.recordRange ≤ 2) &&
    decide (0 ≤ value.csvShape) && decide (value.csvShape ≤ 1)

def loadLastDataExport (node : YamlNode) : Except String DataExportConfig := do
  let valid ← readScalar (some node) "valid" false
  let content ← readScalar (some node) "content" 0
  let format ← readScalar (some node) "format" 0
  let waveRange ← readScalar (some node) "wave_range" 0
  let recordRange ← readScalar (some node) "record_range" 0
  let csvShape ← readScalar (some node) "csv_shape" 0
  let directory ← readScalar (some node) "directory" ""
  let value : DataExportConfig := {
    valid := valid
    content := content
    format := format
    waveRange := waveRange
    recordRange := recordRange
    csvShape := csvShape
    directory := directory }
  return { value with valid := value.valid && value.inRange }

/-- The policy comes from the newer key, and from the older one only if the newer one is
missing. -/
def loadTransferLog (gui : GuiConfig) (node : YamlNode) : Except String GuiConfig := do
  let hasNewKey := (← node.subscript "history_on_parsed_switch").isSome
  let hasLegacyKey := (← node.subscript "replay_raw_history_on_schema_switch").isSome
  let replay ← readScalar (some node) "replay_raw_history_on_schema_switch"
    gui.replayRawHistoryOnSchemaSwitch
  let historyOnParsedSwitch ←
    if hasNewKey then readEnum (some node) "history_on_parsed_switch" gui.historyOnParsedSwitch
    else if hasLegacyKey then pure (if replay then .useHistory else .ask)
    else pure gui.historyOnParsedSwitch
  let historyScope ← readEnum (some node) "history_scope" gui.historyScope
  return { gui with
    replayRawHistoryOnSchemaSwitch := replay
    historyOnParsedSwitch := historyOnParsedSwitch
    historyScope := historyScope }

/-- The `wave` section and what is loaded with it. -/
def loadGuiWave (node : Option YamlNode) (gui : GuiConfig) (flags : PerformanceExplicitOverrides)
    (wave : YamlNode) : Except String (GuiConfig × PerformanceExplicitOverrides) := do
  let wave ← loadGuiWaveConfig wave gui.wave
  loadGuiWaveScopedRuntimeConfig node { gui with wave := wave } flags

def loadGuiConfig (root : YamlNode) (config : AppConfig) : Except String AppConfig := do
  let node ← root.subscript "gui"
  let gui := config.gui
  let theme ← readScalar node "theme" gui.theme
  let importSource ← readScalar (← childNode node "data_import") "protocol_source" "prefer_package"
  let rendererBackend ← readScalar node "renderer_backend" (enumToText gui.rendererBackend)
  let window ← whenDefined (← childNode node "window") gui.window (loadWindow gui.window)
  let fontChineseGlyphRange ← whenDefined (← childNode node "font") gui.fontChineseGlyphRange
    (loadFont gui.fontChineseGlyphRange)
  let interactionFeedback ← whenDefined (← childNode node "interaction_feedback")
    gui.interactionFeedback (loadInteractionFeedback gui.interactionFeedback)
  let dialogs ← childNode node "file_dialogs"
  let lastExport ← childNode node "last_data_export"
  let fileDialogs ← loadFileDialogs gui.fileDialogs dialogs lastExport
  let lastDataExport ← whenDefined lastExport gui.lastDataExport loadLastDataExport
  let gui := { gui with
    theme := theme
    importProtocolSource :=
      if importSource = "current_protocol" then .currentProtocol else .preferPackage
    rendererBackend := parseGuiRendererBackend rendererBackend
    window := window
    fontChineseGlyphRange := fontChineseGlyphRange
    interactionFeedback := interactionFeedback
    fileDialogs := fileDialogs
    lastDataExport := lastDataExport }
  let flags := config.performance.explicitOverrides
  let loaded ← whenDefined (← childNode node "wave") (gui, flags) (loadGuiWave node gui flags)
  let gui := loaded.1
  let elfSymbolCombo ← whenDefined (← childNode node "elf_symbol_combo") gui.elfSymbolCombo
    (loadElfSymbolCombo gui.elfSymbolCombo)
  let gui ← whenDefined (← childNode node "transfer_log")
    { gui with elfSymbolCombo := elfSymbolCombo }
    (loadTransferLog { gui with elfSymbolCombo := elfSymbolCombo })
  return { config with
    gui := gui
    performance := { config.performance with explicitOverrides := loaded.2 } }

/-! ### Protocols, scripts and logs -/

def loadProtocolTx (tx : ProtocolTxConfig) (node : YamlNode) : Except String ProtocolTxConfig := do
  let sendTimeoutMs ← readScalar (some node) "send_timeout_ms" tx.sendTimeoutMs
  let requestTimeoutMs ← readScalar (some node) "request_timeout_ms" tx.requestTimeoutMs
  let maxPending ← readScalar (some node) "max_pending" tx.maxPending
  let overflowPolicy ← readScalar (some node) "overflow_policy" tx.overflowPolicy
  let overflowNotify ← readScalar (some node) "overflow_notify" tx.overflowNotify
  return {
    sendTimeoutMs := sendTimeoutMs
    requestTimeoutMs := requestTimeoutMs
    maxPending := maxPending
    overflowPolicy := overflowPolicy
    overflowNotify := overflowNotify }

def loadProtocolConfig (root : YamlNode) (protocol : ProtocolConfig) :
    Except String ProtocolConfig := do
  let node ← root.subscript "protocol"
  let rootDir ← readScalar node "root_dir" protocol.rootDir
  let selectedDir ← readScalar node "selected_dir" protocol.selectedDir
  let tx ← whenDefined (← childNode node "tx") protocol.tx (loadProtocolTx protocol.tx)
  return { rootDir := rootDir, selectedDir := selectedDir, tx := tx }

def loadStreamBuffer (receive : ReceiveConfig) (node : YamlNode) : Except String ReceiveConfig := do
  let nearOverflowThreshold ←
    readScalar (some node) "near_overflow_threshold" receive.nearOverflowThreshold
  let popupEnabled ← readScalar (some node) "popup_enabled" receive.popupEnabled
  return { receive with
    nearOverflowThreshold := nearOverflowThreshold
    popupEnabled := popupEnabled }

def loadReceive (receive : ReceiveConfig) (flags : PerformanceExplicitOverrides)
    (node : YamlNode) : Except String (ReceiveConfig × PerformanceExplicitOverrides) := do
  let buffer ← readPerformance (some node) "transport_read_buffer_bytes"
    receive.transportReadBufferBytes flags.receiveTransportReadBufferBytes
  let receive := { receive with transportReadBufferBytes := buffer.1 }
  let receive ← whenDefined (← childNode (some node) "stream_buffer") receive
    (loadStreamBuffer receive)
  return (receive, { flags with receiveTransportReadBufferBytes := buffer.2 })

def loadReceiveConfig (root : YamlNode) (config : AppConfig) : Except String AppConfig := do
  let flags := config.performance.explicitOverrides
  let loaded ← whenDefined (← root.subscript "receive") (config.receive, flags)
    (loadReceive config.receive flags)
  return { config with
    receive := loaded.1
    performance := { config.performance with explicitOverrides := loaded.2 } }

/-- Every value is clamped; the age is given in days. -/
def loadScriptingStorage (scripting : ScriptingConfig) (node : YamlNode) :
    Except String ScriptingConfig := do
  let options := scripting.storage
  let rootDir ← readScalar (some node) "root_dir" ""
  let queueBytes ← readScalar (some node) "queue_bytes" options.queueBytes
  let batchRows ← readScalar (some node) "batch_rows" options.batchRows
  let batchInterval ← readScalar (some node) "batch_interval_ms" options.batchInterval
  let recordMaxBytes ← readScalar (some node) "max_record_bytes" options.recordMaxBytes
  let maxVolumeBytes ← readScalar (some node) "max_volume_bytes" options.maxVolumeBytes
  let days : Int64 ← readScalar (some node) "retention_days" 30
  let maintenanceInterval ←
    readScalar (some node) "maintenance_interval_ms" options.maintenanceInterval
  let kvValueBytes ← readScalar (some node) "kv_value_bytes" options.kvValueBytes
  let kvTotalBytes ← readScalar (some node) "kv_total_bytes" options.kvTotalBytes
  let kvDepth ← readScalar (some node) "kv_depth" options.kvDepth
  return { scripting with
    storageRootDir := rootDir
    storage := {
      queueBytes := clamp queueBytes 1024 (1024 * 1024 * 1024)
      batchRows := clamp batchRows 1 100000
      batchInterval := clamp batchInterval 1 60000
      recordMaxBytes := clamp recordMaxBytes 1 (2 ^ 50)
      maxVolumeBytes := clamp maxVolumeBytes 1 (2 ^ 50)
      recordMaxAge := clamp days 0 36500 * 24 * 3600000000
      maintenanceInterval := clamp maintenanceInterval 1 60000
      kvValueBytes := clamp kvValueBytes 1 (256 * 1024)
      kvTotalBytes := clamp kvTotalBytes 1 (1024 * 1024 * 1024)
      kvDepth := clamp kvDepth 1 16 } }

def loadExecution (node : YamlNode) : Except String ExecutionConfig := do
  let loadTimeoutMs ← readScalar (some node) "load_timeout_ms" 5000
  let callbackTimeoutMs ← readScalar (some node) "callback_timeout_ms" 500
  return {
    loadTimeoutMs := clamp loadTimeoutMs 1 3600000
    callbackTimeoutMs := clamp callbackTimeoutMs 1 3600000 }

def loadPipeline (workerThreads : Option UInt64) (node : YamlNode) :
    Except String (Option UInt64) := do
  if (← node.subscript "worker_threads").isSome then
    return some (← readScalar (some node) "worker_threads" 1)
  else return workerThreads

def loadScriptingWorker (scripting : ScriptingConfig) (flags : PerformanceExplicitOverrides)
    (node : YamlNode) : Except String (ScriptingConfig × PerformanceExplicitOverrides) := do
  let enabled ← readScalar (some node) "enabled" scripting.workerEnabled
  let rxQueue ← readPerformance (some node) "rx_queue_limit_bytes"
    scripting.workerRxQueueLimitBytes flags.workerRxQueueLimitBytes
  let memory ← readPerformance (some node) "memory_budget_bytes"
    scripting.workerMemoryBudgetBytes flags.workerMemoryBudgetBytes
  let ratio ← readScalar (some node) "memory_budget_available_ratio"
    scripting.workerMemoryBudgetAvailableRatio
  let outputQueue ← readPerformance (some node) "output_queue_limit"
    scripting.workerOutputQueueLimit flags.workerOutputQueueLimit
  let batch ← readPerformance (some node) "batch_bytes"
    scripting.workerBatchBytes flags.workerBatchBytes
  let backpressure ←
    readScalar (some node) "backpressure_enabled" scripting.workerBackpressureEnabled
  let high ← readScalar (some node) "backpressure_rx_queue_high_watermark"
    scripting.workerBackpressureHighWatermark
  let low ← readScalar (some node) "backpressure_rx_queue_low_watermark"
    scripting.workerBackpressureLowWatermark
  let flush ← readPerformance (some node) "output_flush_budget_ms"
    scripting.workerOutputFlushBudgetMs flags.workerOutputFlushBudgetMs
  let drain ← readScalar (some node) "drain_request_outputs_unbounded"
    scripting.drainRequestOutputsUnbounded
  return (
    { scripting with
      workerEnabled := enabled
      workerRxQueueLimitBytes := rxQueue.1
      workerMemoryBudgetBytes := memory.1
      workerMemoryBudgetAvailableRatio := ratio
      workerOutputQueueLimit := outputQueue.1
      workerBatchBytes := batch.1
      workerBackpressureEnabled := backpressure
      workerBackpressureHighWatermark := high
      workerBackpressureLowWatermark := low
      workerOutputFlushBudgetMs := flush.1
      drainRequestOutputsUnbounded := drain },
    { flags with
      workerRxQueueLimitBytes := rxQueue.2
      workerMemoryBudgetBytes := memory.2
      workerOutputQueueLimit := outputQueue.2
      workerBatchBytes := batch.2
      workerOutputFlushBudgetMs := flush.2 })

/-- `loadScriptingWorkerConfig` -/
def loadScriptingWorkerConfig (node : Option YamlNode) (scripting : ScriptingConfig)
    (flags : PerformanceExplicitOverrides) :
    Except String (ScriptingConfig × PerformanceExplicitOverrides) := do
  let scripting ← whenDefined (← childNode node "storage") scripting
    (loadScriptingStorage scripting)
  let execution ← whenDefined (← childNode node "execution") scripting.execution loadExecution
  let workerThreads ← whenDefined (← childNode node "pipeline") scripting.pipelineWorkerThreads
    (loadPipeline scripting.pipelineWorkerThreads)
  let scripting := { scripting with
    execution := execution
    pipelineWorkerThreads := workerThreads }
  whenDefined (← childNode node "worker") (scripting, flags) (loadScriptingWorker scripting flags)

/-- The loop of `readStringList` over the items. -/
def readStrings : List YamlNode → Except String (List String)
  | [] => .ok []
  | item :: items => do return (← item.as) :: (← readStrings items)

def readStringList (node : Option YamlNode) (key : String) (fallback : List String) :
    Except String (List String) :=
  match node with
  | some node => do
    match ← node.subscript key with
    | some (.sequence items) => readStrings items
    | _ => return fallback
  | none => .ok fallback

def loadFileDialog (fileIo : FileIoConfig) (node : YamlNode) : Except String FileIoConfig := do
  let enabled ← readScalar (some node) "enabled" fileIo.dialogEnabled
  let rememberLastDir ← readScalar (some node) "remember_last_dir" fileIo.dialogRememberLastDir
  return { fileIo with dialogEnabled := enabled, dialogRememberLastDir := rememberLastDir }

def loadSendFile (fileIo : FileIoConfig) (node : YamlNode) : Except String FileIoConfig := do
  let defaultChunkBytes ←
    readScalar (some node) "default_chunk_bytes" fileIo.sendFileDefaultChunkBytes
  let maxInflightChunks ←
    readScalar (some node) "max_inflight_chunks" fileIo.sendFileMaxInflightChunks
  return { fileIo with
    sendFileDefaultChunkBytes := defaultChunkBytes
    sendFileMaxInflightChunks := maxInflightChunks }

/-- `loadScriptingFileIoConfig` -/
def loadScriptingFileIo (fileIo : FileIoConfig) (node : YamlNode) : Except String FileIoConfig := do
  let enabled ← readScalar (some node) "enabled" fileIo.enabled
  let allowProtocolDir ← readScalar (some node) "allow_protocol_dir" fileIo.allowProtocolDir
  let allowDialogPaths ← readScalar (some node) "allow_dialog_paths" fileIo.allowDialogPaths
  let extraAllowedRoots ←
    readStringList (some node) "extra_allowed_roots" fileIo.extraAllowedRoots
  let maxOpenFiles ← readScalar (some node) "max_open_files" fileIo.maxOpenFiles
  let defaultChunkBytes ← readScalar (some node) "default_chunk_bytes" fileIo.defaultChunkBytes
  let maxChunkBytes ← readScalar (some node) "max_chunk_bytes" fileIo.maxChunkBytes
  let maxFileSizeBytes ← readScalar (some node) "max_file_size_bytes" fileIo.maxFileSizeBytes
  let maxWriteFileSizeBytes ←
    readScalar (some node) "max_write_file_size_bytes" fileIo.maxWriteFileSizeBytes
  let fileIo := { fileIo with
    enabled := enabled
    allowProtocolDir := allowProtocolDir
    allowDialogPaths := allowDialogPaths
    extraAllowedRoots := extraAllowedRoots
    maxOpenFiles := maxOpenFiles
    defaultChunkBytes := defaultChunkBytes
    maxChunkBytes := maxChunkBytes
    maxFileSizeBytes := maxFileSizeBytes
    maxWriteFileSizeBytes := maxWriteFileSizeBytes }
  let fileIo ← whenDefined (← childNode (some node) "dialog") fileIo (loadFileDialog fileIo)
  whenDefined (← childNode (some node) "send_file") fileIo (loadSendFile fileIo)

def loadScriptingConfig (root : YamlNode) (config : AppConfig) : Except String AppConfig := do
  let node ← root.subscript "scripting"
  let loaded ← loadScriptingWorkerConfig node config.scripting config.performance.explicitOverrides
  let fileIo ← whenDefined (← childNode node "file_io") loaded.1.fileIo
    (loadScriptingFileIo loaded.1.fileIo)
  return { config with
    scripting := { loaded.1 with fileIo := fileIo }
    performance := { config.performance with explicitOverrides := loaded.2 } }

def loadPayloadPreview (logging : AppLoggingConfig) (node : YamlNode) :
    Except String AppLoggingConfig := do
  let enabled ← readScalar (some node) "enabled" logging.payloadPreviewEnabled
  let maxBytes ← readScalar (some node) "max_bytes" logging.payloadPreviewMaxBytes
  return { logging with payloadPreviewEnabled := enabled, payloadPreviewMaxBytes := maxBytes }

def loadLoggingConfig (root : YamlNode) (logging : AppLoggingConfig) :
    Except String AppLoggingConfig := do
  let node ← root.subscript "logging"
  let level ← readScalar node "level" (enumToText logging.level)
  let filePath ← readScalar node "file_path" logging.filePath
  let maxFileSizeBytes ← readScalar node "max_file_size_bytes" logging.maxFileSizeBytes
  let maxFiles ← readScalar node "max_files" logging.maxFiles
  let logging := { logging with
    level := parseLogLevel level
    filePath := filePath
    maxFileSizeBytes := maxFileSizeBytes
    maxFiles := maxFiles }
  whenDefined (← childNode node "payload_preview") logging (loadPayloadPreview logging)

/-! ### Transports -/

def loadTcpClient (tcpClient : TcpClientConfig) (node : YamlNode) :
    Except String TcpClientConfig := do
  let host ← readScalar (some node) "host" tcpClient.host
  let port ← readScalar (some node) "port" tcpClient.port
  return { tcpClient with host := host, port := port }

def loadTcpServer (tcpServer : TcpServerConfig) (node : YamlNode) :
    Except String TcpServerConfig := do
  let bindAddress ← readScalar (some node) "bind_address" tcpServer.bindAddress
  let port ← readScalar (some node) "port" tcpServer.port
  let rejectNewConnection ←
    readScalar (some node) "reject_new_connection" tcpServer.rejectNewConnection
  return { tcpServer with
    bindAddress := bindAddress
    port := port
    rejectNewConnection := rejectNewConnection }

def loadSerial (serial : SerialConfig) (node : YamlNode) : Except String SerialConfig := do
  let portName ← readScalar (some node) "port_name" serial.portName
  let baudRate ← readScalar (some node) "baud_rate" serial.baudRate
  let dataBits ← readScalar (some node) "data_bits" serial.dataBits
  let parity ← readScalar (some node) "parity" serial.parity
  let stopBits ← readScalar (some node) "stop_bits" serial.stopBits
  let flowControl ← readScalar (some node) "flow_control" serial.flowControl
  return { serial with
    portName := portName
    baudRate := baudRate
    dataBits := dataBits
    parity := parity
    stopBits := stopBits
    flowControl := flowControl }

def loadUdpPeer (udpPeer : UdpPeerConfig) (node : YamlNode) : Except String UdpPeerConfig := do
  let bindAddress ← readScalar (some node) "bind_address" udpPeer.bindAddress
  let bindPort ← readScalar (some node) "bind_port" udpPeer.bindPort
  let remoteHost ← readScalar (some node) "remote_host" udpPeer.remoteHost
  let remotePort ← readScalar (some node) "remote_port" udpPeer.remotePort
  return { udpPeer with
    bindAddress := bindAddress
    bindPort := bindPort
    remoteHost := remoteHost
    remotePort := remotePort }

/-- A kind that is not known is a TCP client. -/
def loadCommunicationConfig (root : YamlNode) (communication : CommDockState) :
    Except String CommDockState := do
  let node ← root.subscript "communication"
  let kind ← readScalar node "kind" (enumToText communication.kind)
  let tcpClient ← whenDefined (← childNode node "tcp_client") communication.tcpClient
    (loadTcpClient communication.tcpClient)
  let tcpServer ← whenDefined (← childNode node "tcp_server") communication.tcpServer
    (loadTcpServer communication.tcpServer)
  let serial ← whenDefined (← childNode node "serial") communication.serial
    (loadSerial communication.serial)
  let udpPeer ← whenDefined (← childNode node "udp_peer") communication.udpPeer
    (loadUdpPeer communication.udpPeer)
  return {
    kind := lookupEnum kind .tcpClient
    tcpClient := tcpClient
    tcpServer := tcpServer
    serial := serial
    udpPeer := udpPeer }

/-! ### The whole document -/

def loadConfigYamlRoot (longDouble : LongDouble) (root : YamlNode) (config : AppConfig) :
    Except String AppConfig := do
  let config ← loadPerformanceConfig longDouble root config
  let app ← loadAppConfig root config.app
  let config ← loadGuiConfig root { config with app := app }
  let protocol ← loadProtocolConfig root config.protocol
  let config ← loadReceiveConfig root { config with protocol := protocol }
  let config ← loadScriptingConfig root config
  let logging ← loadLoggingConfig root config.logging
  let communication ← loadCommunicationConfig root config.communication
  recomputePerformanceDefaults longDouble
    { config with logging := logging, communication := communication }

structure ConfigLoadResult where
  config : AppConfig
  resolvedPath : String
  loadedFromDisk : Bool := false
  error : String := ""

namespace ConfigStore

def withDefaults (store : ConfigStore) : AppConfig where
  protocol := {
    rootDir := store.files.normalizeTextPath (store.files.parentPath store.defaultProtocolDir)
    selectedDir := store.files.normalizeTextPath store.defaultProtocolDir }
  configPath := store.files.normalizeTextPath store.defaultConfigPath

/-- What `loadText` reads; the text of the document is its tree. -/
def readDocument (store : ConfigStore) (longDouble : LongDouble) :
    YamlNode → Except String AppConfig
  | .map entries => loadConfigYamlRoot longDouble (.map entries) store.withDefaults
  | _ => .error "配置根节点必须为映射"

def loadText (store : ConfigStore) (longDouble : LongDouble) (yamlText : YamlNode)
    (sourcePath : String) : ConfigLoadResult :=
  let resolvedPath := if sourcePath = "" then store.defaultConfigPath else sourcePath
  match store.readDocument longDouble yamlText with
  | .ok candidate => {
      config := { candidate with configPath := store.files.normalizeTextPath resolvedPath }
      resolvedPath := resolvedPath
      loadedFromDisk := true }
  | .error what => {
      config := store.withDefaults
      resolvedPath := resolvedPath
      error := "读取 YAML 文本失败: " ++ what }

def saveText (store : ConfigStore) (longDouble : LongDouble) (config : AppConfig) :
    Except String YamlNode :=
  match buildConfigYamlRoot longDouble config store.withDefaults with
  | .ok root => .ok root
  | .error what => .error ("生成 YAML 文本失败: " ++ what)

end ConfigStore

end ProtoScope.Config
