/-
The wave section comes back as it was written.

Its widths and factors pass through the loader's normalizers, its colours through six
hexadecimal digits; what lies in the ranges the loader accepts is not changed by either.
-/
import ProtoScope.Proofs.Config.YamlReading

namespace ProtoScope.Config

open ProtoScope.Plot (WaveDisplayFormula zeroDouble)

/-! ### Ranges -/

/-- The colour of a display with a byte for each component. -/
def IsByteColor (color : Float32 × Float32 × Float32) : Prop :=
  ∃ red green blue, red < 256 ∧ green < 256 ∧ blue < 256 ∧
    color = (colorComponent red, colorComponent green, colorComponent blue)

/-- Finite and between 0 and 1. -/
def IsAlpha (alpha : Float32) : Prop :=
  alpha.isFinite = true ∧ alpha.lt 0 = false ∧ Float32.lt 1 alpha = false

structure OverviewSelectionConfig.InRange (selection : OverviewSelectionConfig) : Prop where
  fixedColor : ∀ color, selection.fixedColor = some color → IsByteColor color
  minAlpha : ∀ alpha, selection.minAlpha = some alpha → IsAlpha alpha
  maxAlpha : ∀ alpha, selection.maxAlpha = some alpha → IsAlpha alpha
  ordered : alphasInOrder selection = true

structure GuiWaveConfig.InRange (wave : GuiWaveConfig) : Prop where
  fixedWidth : zeroDouble.lt wave.channelCardFixedWidth = true
  adaptiveRatio : zeroDouble.lt wave.channelCardAdaptiveRatio = true
  /-- finite and positive, or zero -/
  nameWidth : positiveOrZero wave.legendChannelNameMaxWidth = wave.legendChannelNameMaxWidth
  fitMultiplier : zeroDouble.lt wave.verticalAutoFitMultiplier = true
  overviewSelection : wave.overviewSelection.InRange

/-! ### Colours -/

theorem hexValue_hexDigit : ∀ digit < 16, hexValue (hexDigit digit) = some digit := by
  decide

theorem colorByte_colorComponent {byte : ℕ} (hbyte : byte < 256) :
    colorByte (colorComponent byte) = byte := by
  -- sixteen at a time, so that no evaluation is large
  have hblock : ∀ high < 16, ∀ low < 16,
      colorByte (colorComponent (16 * high + low)) = 16 * high + low := by
    intro high hhigh
    interval_cases high <;> decide +kernel
  have hbyteValue : 16 * (byte / 16) + byte % 16 = byte := by omega
  rw [← hbyteValue]
  exact hblock (byte / 16) (by omega) (byte % 16) (by omega)

/-- The two digits of a byte are read as its component. -/
theorem readColorByte_hexByte {byte : ℕ} (hbyte : byte < 256) :
    readColorByte (hexDigit (byte / 16)) (hexDigit (byte % 16)) = some (colorComponent byte) := by
  have hhigh : hexValue (hexDigit (byte / 16)) = some (byte / 16) :=
    hexValue_hexDigit _ (by omega)
  have hlow : hexValue (hexDigit (byte % 16)) = some (byte % 16) :=
    hexValue_hexDigit _ (by omega)
  have hvalue : 16 * (byte / 16) + byte % 16 = byte := by omega
  simp only [readColorByte, hhigh, hlow, Option.bind_eq_bind, Option.bind_some, hvalue,
    Option.pure_def]

theorem readColorDigits_colorText {color : Float32 × Float32 × Float32} (h : IsByteColor color) :
    readColorDigits (colorText color).toList = some color := by
  obtain ⟨red, green, blue, hred, hgreen, hblue, rfl⟩ := h
  simp only [colorText, String.toList_ofList, colorByte_colorComponent hred,
    colorByte_colorComponent hgreen, colorByte_colorComponent hblue, hexByte,
    List.cons_append, List.nil_append, readColorDigits, if_true, readColorByte_hexByte hred,
    readColorByte_hexByte hgreen, readColorByte_hexByte hblue, Option.bind_eq_bind,
    Option.bind_some, Option.pure_def]

/-! ### The overview's selection -/

theorem readAlpha_yaml {key : String} {alpha : Float32} (h : IsAlpha alpha) :
    readAlpha key (yaml alpha) = .ok alpha := by
  simp only [readAlpha, as_yaml, bind, Except.bind, h.1, h.2.1, h.2.2, Bool.not_true,
    Bool.or_self, Bool.false_eq_true, if_false, pure, Except.pure]

theorem readSelectionEntry_mode (target : OverviewSelectionConfig) (automatic : Bool) :
    readSelectionEntry target "mode" (yaml (if automatic then "auto" else "fixed")) =
      .ok { target with automatic := automatic } := by
  cases automatic <;> rfl

theorem readSelectionEntry_minAlpha (target : OverviewSelectionConfig) {alpha : Float32}
    (h : IsAlpha alpha) :
    readSelectionEntry target "min_alpha" (yaml alpha) =
      .ok { target with minAlpha := some alpha } := by
  show (readAlpha "min_alpha" (yaml alpha) >>= _) = _
  rw [readAlpha_yaml h]
  rfl

theorem readSelectionEntry_maxAlpha (target : OverviewSelectionConfig) {alpha : Float32}
    (h : IsAlpha alpha) :
    readSelectionEntry target "max_alpha" (yaml alpha) =
      .ok { target with maxAlpha := some alpha } := by
  show (readAlpha "max_alpha" (yaml alpha) >>= _) = _
  rw [readAlpha_yaml h]
  rfl

theorem readSelectionEntry_fixedColor (target : OverviewSelectionConfig)
    {color : Float32 × Float32 × Float32} (h : IsByteColor color) :
    readSelectionEntry target "fixed_color" (yaml (colorText color)) =
      .ok { target with fixedColor := some color } := by
  have hmode : ("fixed_color" = "mode") = False := eq_false (by decide)
  simp only [readSelectionEntry, hmode, if_false, if_true, as_yaml, bind, Except.bind,
    readColorDigits_colorText h]
  rfl

/-- An entry with a key of its own is read, and the loop goes on behind it. -/
theorem readSelectionEntries_cons {seen : List String} {target next : OverviewSelectionConfig}
    {key : String} {value : YamlNode} {entries : List (String × YamlNode)}
    {result : Except String OverviewSelectionConfig} (hnew : seen.contains key = false)
    (hread : readSelectionEntry target key value = .ok next)
    (hrest : readSelectionEntries (seen ++ [key]) next entries = result) :
    readSelectionEntries seen target ((key, value) :: entries) = result := by
  simp only [readSelectionEntries, hnew, Bool.false_eq_true, if_false, hread, bind, Except.bind]
  exact hrest

/-- The three entries that may be left out. -/
theorem readSelectionEntries_options {selection : OverviewSelectionConfig}
    (h : selection.InRange) :
    readSelectionEntries ["mode"] { automatic := selection.automatic }
      ((selection.minAlpha.toList.map fun alpha => ("min_alpha", yaml alpha)) ++
        (selection.maxAlpha.toList.map fun alpha => ("max_alpha", yaml alpha)) ++
        selection.fixedColor.toList.map fun color => ("fixed_color", yaml (colorText color))) =
      .ok selection := by
  obtain ⟨automatic, fixedColor, minAlpha, maxAlpha⟩ := selection
  have hmin := h.minAlpha
  have hmax := h.maxAlpha
  have hcolor := h.fixedColor
  cases minAlpha with
  | none =>
    cases maxAlpha with
    | none =>
      cases fixedColor with
      | none => rfl
      | some color =>
        exact readSelectionEntries_cons rfl (readSelectionEntry_fixedColor _ (hcolor _ rfl)) rfl
    | some greatest =>
      refine readSelectionEntries_cons rfl (readSelectionEntry_maxAlpha _ (hmax _ rfl)) ?_
      cases fixedColor with
      | none => rfl
      | some color =>
        exact readSelectionEntries_cons rfl (readSelectionEntry_fixedColor _ (hcolor _ rfl)) rfl
  | some least =>
    refine readSelectionEntries_cons rfl (readSelectionEntry_minAlpha _ (hmin _ rfl)) ?_
    cases maxAlpha with
    | none =>
      cases fixedColor with
      | none => rfl
      | some color =>
        exact readSelectionEntries_cons rfl (readSelectionEntry_fixedColor _ (hcolor _ rfl)) rfl
    | some greatest =>
      refine readSelectionEntries_cons rfl (readSelectionEntry_maxAlpha _ (hmax _ rfl)) ?_
      cases fixedColor with
      | none => rfl
      | some color =>
        exact readSelectionEntries_cons rfl (readSelectionEntry_fixedColor _ (hcolor _ rfl)) rfl

theorem loadOverviewSelection_eq {selection : OverviewSelectionConfig} (h : selection.InRange) :
    loadOverviewSelection {} (writeOverviewSelection selection) = .ok selection := by
  have hmode := readSelectionEntry_mode {} selection.automatic
  have hentries : readSelectionEntries [] {} (("mode", _) :: _) = .ok selection :=
    readSelectionEntries_cons rfl hmode (readSelectionEntries_options h)
  simp only [loadOverviewSelection, writeOverviewSelection, hentries, bind, Except.bind,
    h.ordered, Bool.not_true, Bool.false_eq_true, if_false]
  rfl

/-! ### The section -/

theorem loadResetViewport_eq (policy written : GuiWaveResetViewportConfig) :
    loadResetViewport policy (writeResetViewport written) = .ok written := by
  iterate 3 refine read_bind rfl ?_
  iterate 4 refine readEnum_bind rfl ?_
  rfl

theorem readFloat4_bind {β : Type} {entries : List (String × YamlNode)} {key : String}
    {values fallback : Float32 × Float32 × Float32 × Float32}
    {next : Float32 × Float32 × Float32 × Float32 → Except String β} {result : Except String β}
    (hentry : entries.lookup key = some (makeFloat4Node values)) (hnext : next values = result) :
    (readFloat4 (some (.map entries)) key fallback >>= next) = result := by
  have hread : readFloat4 (some (.map entries)) key fallback = .ok values := by
    simp only [readFloat4, subscript_map, hentry, makeFloat4Node, bind, Except.bind, asOr_yaml]
    rfl
  rw [hread]
  exact hnext

theorem downsampleMode_text (mode : WaveDownsampleMode) :
    (if (if mode = .legacyUniform then "legacy_uniform" else "stable_edges") = "stable_edges"
      then WaveDownsampleMode.stableEdges else .legacyUniform) = mode := by
  cases mode <;> rfl

theorem bitDenseRenderMode_text (mode : WaveBitDenseRenderMode) :
    (if (if mode = .activityBand then "activity_band" else "compressed_steps") = "activity_band"
      then WaveBitDenseRenderMode.activityBand else .compressedSteps) = mode := by
  cases mode <;> rfl

theorem loadChannelScaleWheel_eq (wave : GuiWaveConfig) (enabled : Bool)
    (acceleration : WaveChannelScaleWheelAcceleration) :
    loadChannelScaleWheel wave (.map [
      ("enabled", yaml enabled), ("acceleration", yaml (enumToText acceleration))]) =
      .ok { wave with
        channelScaleWheelEnabled := enabled
        channelScaleWheelAcceleration := acceleration } := by
  refine read_bind rfl (read_bind rfl ?_)
  rw [lookupEnum_enumToText]
  rfl

/-- What `loadWaveInteraction` reads. -/
theorem loadWaveInteraction_eq (written wave : GuiWaveConfig) :
    loadWaveInteraction (writeGuiWaveConfig written) wave = .ok { wave with
      controlMode := written.controlMode
      displayFormula := written.displayFormula
      gridDivisionReadoutMode := written.gridDivisionReadoutMode
      channelScaleWheelEnabled := written.channelScaleWheelEnabled
      channelScaleWheelAcceleration := written.channelScaleWheelAcceleration
      channelCardWidthMode := written.channelCardWidthMode
      channelDoubleClickAction := written.channelDoubleClickAction
      xAxisDoubleClickAction := written.xAxisDoubleClickAction
      yAxisDoubleClickAction := written.yAxisDoubleClickAction
      yAxisDoubleClickAdjustOffset := written.yAxisDoubleClickAdjustOffset
      hiddenChannelPolicy := written.hiddenChannelPolicy
      cursorExtremeSnapPolicy := written.cursorExtremeSnapPolicy
      mouseYOffsetDragMode := written.mouseYOffsetDragMode
      legendOverlayOpenMode := written.legendOverlayOpenMode
      legendOverlayDoubleClickAutoCollapse := written.legendOverlayDoubleClickAutoCollapse
      interactionAnimationEnabled := written.interactionAnimationEnabled
      zoomSelectionAutoExit := written.zoomSelectionAutoExit
      peakDetectDownsample := written.peakDetectDownsample } := by
  iterate 3 refine readEnum_bind rfl ?_
  refine section_bind rfl (loadChannelScaleWheel_eq _ _ _) ?_
  refine read_bind rfl ?_
  iterate 3 refine readEnum_bind rfl ?_
  refine read_bind rfl ?_
  iterate 4 refine readEnum_bind rfl ?_
  iterate 4 refine read_bind rfl ?_
  rw [lookupEnum_enumToText]
  rfl

/-- What `loadWaveRendering` reads; no selection has been loaded before. -/
theorem loadWaveRendering_eq {written wave : GuiWaveConfig} (h : written.overviewSelection.InRange)
    (hwave : wave.overviewSelection = {}) :
    loadWaveRendering (writeGuiWaveConfig written) wave = .ok { wave with
      downsampleMode := written.downsampleMode
      bitDenseRenderMode := written.bitDenseRenderMode
      maxRenderPointsPerChannel := written.maxRenderPointsPerChannel
      maxRenderVertices := written.maxRenderVertices
      downsampleStartMultiplier := written.downsampleStartMultiplier
      overviewMaxSamples := written.overviewMaxSamples
      overviewNormalizeChannels := written.overviewNormalizeChannels
      overviewShowBitChannels := written.overviewShowBitChannels
      cursorAutoColor := written.cursorAutoColor
      overviewSelection := written.overviewSelection } := by
  iterate 9 refine read_bind rfl ?_
  refine section_bind rfl (hwave ▸ loadOverviewSelection_eq h) ?_
  rw [downsampleMode_text, bitDenseRenderMode_text]
  rfl

/-- What `loadWaveLayout` reads. -/
theorem loadWaveLayout_eq {written : GuiWaveConfig} (h : written.InRange) (wave : GuiWaveConfig) :
    loadWaveLayout (writeGuiWaveConfig written) wave = .ok { wave with
      maxTotalSamples := written.maxTotalSamples
      minVisibleTimeSpan := written.minVisibleTimeSpan
      channelCardFixedWidth := written.channelCardFixedWidth
      channelCardAdaptiveRatio := written.channelCardAdaptiveRatio
      legendChannelNameMaxWidth := written.legendChannelNameMaxWidth
      verticalAutoFitMultiplier := written.verticalAutoFitMultiplier
      resetHistoryOnTimeReset := written.resetHistoryOnTimeReset
      showAxisLabels := written.showAxisLabels
      showChannelLegend := written.showChannelLegend
      showFftLegend := written.showFftLegend
      followMeasurementCursorsOnScroll := written.followMeasurementCursorsOnScroll
      measurementVisibleWindowOnly := written.measurementVisibleWindowOnly
      measurementFollowRefreshIntervalMs := written.measurementFollowRefreshIntervalMs
      cursorFftHighlightRgba := written.cursorFftHighlightRgba
      fullscreenMode := written.fullscreenMode
      resetViewport := written.resetViewport } := by
  iterate 13 refine read_bind rfl ?_
  refine readFloat4_bind rfl ?_
  refine readEnum_bind rfl ?_
  refine section_bind rfl (loadResetViewport_eq _ _) ?_
  rw [positiveOrFallback_eq h.fixedWidth, positiveOrFallback_eq h.adaptiveRatio, h.nameWidth,
    positiveOrFallback_eq h.fitMultiplier]
  rfl

/-- The whole section comes back. -/
theorem loadGuiWaveConfig_eq {written wave : GuiWaveConfig} (h : written.InRange)
    (hwave : wave.overviewSelection = {}) :
    loadGuiWaveConfig (writeGuiWaveConfig written) wave = .ok written := by
  refine bind_eq (loadWaveInteraction_eq written wave) ?_
  refine bind_eq (loadWaveRendering_eq h.overviewSelection hwave) ?_
  exact loadWaveLayout_eq h _

end ProtoScope.Config
