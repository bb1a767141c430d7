/-
Whether the docks give a configuration back.

Applying writes every setting the capture reads, one place apart: the transports are copied
one by one on the way in and as a whole on the way out, and the peer of UDP is only in the
whole.  A captured configuration therefore has the peer the docks had before.
-/
import ProtoScope.Config.ConfigStore

namespace ProtoScope.Config

open ProtoScope.Plot (zeroDouble one)
open ProtoScope.Library.FloatOrder ConfigStore

/-! ### Numbers the docks take as they are -/

theorem maxDouble_eq {a b : Float} (h : b.le a = true) : maxDouble a b = a := by
  refine if_neg fun hlt => ?_
  rw [not_le_of_lt hlt] at h
  cases h

theorem positiveOrZero_idem (value : Float) :
    positiveOrZero (positiveOrZero value) = positiveOrZero value := by
  unfold positiveOrZero
  by_cases h : (value.isFinite && zeroDouble.lt value) = true
  · rw [if_pos h, if_pos h]
  · rw [if_neg h]
    exact ite_self _

/-- A width that is not negative keeps its number; only a negative zero becomes a positive
one. -/
theorem positiveOrZero_beq {value : Float} (hfinite : value.isFinite = true)
    (h : zeroDouble.le value = true) : (positiveOrZero value).beq value = true := by
  unfold positiveOrZero
  rw [hfinite, Bool.true_and]
  by_cases hpositive : zeroDouble.lt value = true
  · rw [if_pos hpositive]
    exact (beq_iff_eq_of_positive hpositive).mpr rfl
  · rw [if_neg hpositive]
    exact (lt_or_beq_of_le h).resolve_left hpositive

/-! ### What comes back -/

/-- The settings a configuration may have: those the loader makes, for a protocol directory
that resolves to itself. -/
structure SettingsInRange (store : ConfigStore) (config : AppConfig) : Prop where
  resolvable : store.files.normalizeTextPath
    (store.normalizeProtocolDir config.protocol.rootDir config.protocol.selectedDir) =
      config.protocol.selectedDir
  downsampleStart : one.le config.gui.wave.downsampleStartMultiplier = true
  fixedWidth : zeroDouble.lt config.gui.wave.channelCardFixedWidth = true
  adaptiveRatio : zeroDouble.lt config.gui.wave.channelCardAdaptiveRatio = true
  fitMultiplier : zeroDouble.lt config.gui.wave.verticalAutoFitMultiplier = true
  nameWidth : config.gui.wave.legendChannelNameMaxWidth.isFinite = true ∧
    zeroDouble.le config.gui.wave.legendChannelNameMaxWidth = true
  configPath : config.configPath ≠ ""

/-- The settings the docks own are the same.  The docks have all of `app` but the language and
all of `gui.wave` but three fields. -/
structure SameDockSettings (config captured : AppConfig) : Prop where
  communication : captured.communication = config.communication
  rootDir : captured.protocol.rootDir = config.protocol.rootDir
  selectedDir : captured.protocol.selectedDir = config.protocol.selectedDir
  app : { captured.app with language := config.app.language } = config.app
  luaDockLayoutDebug : captured.gui.luaDockLayoutDebug = config.gui.luaDockLayoutDebug
  luaDockRenderCopyMode : captured.gui.luaDockRenderCopyMode = config.gui.luaDockRenderCopyMode
  wave : { captured.gui.wave with
    legendChannelNameMaxWidth := config.gui.wave.legendChannelNameMaxWidth
    maxTotalSamples := config.gui.wave.maxTotalSamples
    resetHistoryOnTimeReset := config.gui.wave.resetHistoryOnTimeReset
    fullscreenMode := config.gui.wave.fullscreenMode } = config.gui.wave
  nameWidth : captured.gui.wave.legendChannelNameMaxWidth.beq
    config.gui.wave.legendChannelNameMaxWidth = true
  configPath : captured.configPath = config.configPath

/-- The transports come back with the peer the docks had. -/
theorem applyCommunication_eq_iff (communication comm : CommDockState) :
    applyCommunication communication comm = communication ↔
      comm.udpPeer = communication.udpPeer := by
  constructor
  · intro h
    have hpeer := congrArg CommDockState.udpPeer h
    exact hpeer
  · intro h
    unfold applyCommunication
    rw [h]

theorem captureWave_apply {gui : GuiConfig} (view : WaveViewState)
    (overlay : WaveLegendOverlayState) (formula : ProtoScope.Plot.WaveDisplayFormula)
    (base : GuiWaveConfig)
    (hstart : one.le gui.wave.downsampleStartMultiplier = true)
    (hfixed : zeroDouble.lt gui.wave.channelCardFixedWidth = true)
    (hratio : zeroDouble.lt gui.wave.channelCardAdaptiveRatio = true)
    (hfit : zeroDouble.lt gui.wave.verticalAutoFitMultiplier = true) :
    captureWave {
        view := applyWaveView gui view
        legendOverlay := applyLegendOverlay gui.wave overlay
        bufferDisplayFormula := formula } base =
      { gui.wave with
        legendChannelNameMaxWidth := positiveOrZero gui.wave.legendChannelNameMaxWidth
        maxTotalSamples := base.maxTotalSamples
        resetHistoryOnTimeReset := base.resetHistoryOnTimeReset
        fullscreenMode := base.fullscreenMode } := by
  unfold captureWave applyWaveView applyLegendOverlay
  dsimp only
  rw [maxDouble_eq hstart, positiveOrFallback_eq hfixed, positiveOrFallback_eq hratio,
    positiveOrFallback_eq hfit, positiveOrZero_idem]

/-- A machine on which every path exists. -/
def openFiles : FileSystem where
  exist _ := true
  isRelative _ := true
  join root path := root ++ "/" ++ path
  filename path := path
  parentPath path := path
  directories _ := []
  normalizeTextPath path := path

def plainStore : ConfigStore where
  files := openFiles
  defaultConfigPath := "config/protoscope.yaml"
  defaultProtocolDir := "protocols/templates/default_protocol"

theorem defaults_inRange : SettingsInRange plainStore {} :=
  ⟨rfl, by decide, by decide, by decide, by decide, ⟨by decide, by decide⟩, by decide⟩

/-- Docks whose UDP peer listens elsewhere. -/
def otherPeer : DockStore where
  commState := { udpPeer := { bindPort := 19001 } }

end ProtoScope.Config
