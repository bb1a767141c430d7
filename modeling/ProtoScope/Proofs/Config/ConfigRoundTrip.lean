/-
A configuration that is saved and loaded again.

Every section comes back as it was written, but two things are lost.  The worker's
`drain_request_outputs_unbounded` is read and never written, so it is off afterwards.  And a
budget that is not marked as set is written all the same if it is not the scaled default, so
it is marked afterwards.  A configuration comes back exactly if it has neither.
-/
import ProtoScope.Library.FloatOrder
import ProtoScope.Proofs.Config.DockSettings
import ProtoScope.Proofs.Config.ScriptingSections

namespace ProtoScope.Config

open ProtoScope.Plot (zeroDouble one)
open ProtoScope.Library.FloatOrder (not_le_of_lt)

/-- The values lie in the ranges the loader accepts. -/
structure AppConfig.InRange (longDouble : LongDouble) (config : AppConfig) : Prop where
  scale : config.performance.scale.isFinite = true ∧ zeroDouble.lt config.performance.scale = true
  /-- between 0.25 and 4 -/
  maxMultiplier : config.performance.adaptive.maxMultiplier.isFinite = true ∧
    config.performance.adaptive.maxMultiplier.le zeroDouble = false ∧
    config.performance.adaptive.maxMultiplier.lt 0.25 = false ∧
    Float.lt 4.0 config.performance.adaptive.maxMultiplier = false
  gui : config.gui.InRange
  storage : config.scripting.storage.InRange
  execution : config.scripting.execution.InRange
  /-- finite, not negative, and not too large in microseconds -/
  flush : config.scripting.workerOutputFlushBudgetMs.isFinite = true ∧
    config.scripting.workerOutputFlushBudgetMs.lt zeroDouble = false ∧
    longDouble.flushOverflows config.scripting.workerOutputFlushBudgetMs = false

/-- The fields the loader reads: the path is where the document is, and the buffers of the
transports are not in it. -/
def AppConfig.settings (config : AppConfig) : AppConfig :=
  { config with
    configPath := ""
    communication := {
      config.communication with
      tcpClient := { config.communication.tcpClient with readBufferBytes := 0 }
      tcpServer := { config.communication.tcpServer with readBufferBytes := 0 }
      serial := { config.communication.serial with readBufferBytes := 0 }
      udpPeer := { config.communication.udpPeer with readBufferBytes := 0 } } }

/-- Saving succeeds, loading what is saved succeeds, and every field comes back. -/
def ConfigStore.RoundTrips (store : ConfigStore) (longDouble : LongDouble) (config : AppConfig)
    (sourcePath : String) : Prop :=
  ∃ yamlText, store.saveText longDouble config = .ok yamlText ∧
    (store.loadText longDouble yamlText sourcePath).loadedFromDisk = true ∧
    (store.loadText longDouble yamlText sourcePath).config.settings = config.settings

/-! ### Differences of a number from itself -/

open Float.Model in
theorem sub_self_cases (spec : Format) (value : UnpackedFloat) :
    value.sub spec value = .notANumber ∨ value.sub spec value = .zero .positive := by
  cases value with
  | notANumber => exact .inl rfl
  | infinity sign => cases sign <;> exact .inl rfl
  | zero sign => cases sign <;> exact .inr rfl
  | finite sign mantissa exponent hm =>
    refine .inr ?_
    simp only [UnpackedFloat.sub, Int.sub_self]
    rfl

open Float.Model in
theorem doubleChanged_self (value : Float) : doubleChanged value value = false := by
  have hsub : value - value = Float.ofModel (pack .notANumber) ∨
      value - value = Float.ofModel (pack (.zero .positive)) :=
    (sub_self_cases Format.binary64 value.toModel.unpack).imp
      (congrArg fun unpacked => Float.ofModel (pack unpacked))
      (congrArg fun unpacked => Float.ofModel (pack unpacked))
  unfold doubleChanged
  rcases hsub with hsub | hsub
  · rw [hsub]
    decide +kernel
  · rw [hsub]
    decide +kernel

/-! ### The defaults that budgets are compared with -/

theorem normalizePerformanceScale_eq {scale : Float}
    (h : scale.isFinite = true ∧ zeroDouble.lt scale = true) :
    normalizePerformanceScale scale = scale := by
  unfold normalizePerformanceScale
  rw [h.1, h.2]
  rfl

theorem normalizeAdaptiveMaxMultiplier_eq {multiplier : Float}
    (h : multiplier.isFinite = true ∧ multiplier.le zeroDouble = false ∧
      multiplier.lt 0.25 = false ∧ Float.lt 4.0 multiplier = false) :
    normalizeAdaptiveMaxMultiplier multiplier = multiplier := by
  simp only [normalizeAdaptiveMaxMultiplier, clampDouble, h.1, h.2.1, h.2.2.1, h.2.2.2,
    Bool.not_true, Bool.or_self, Bool.false_eq_true, if_false]

variable {config : AppConfig} {longDouble : LongDouble}

theorem recomputePerformanceDefaults_eq (longDouble : LongDouble)
    (h : config.performance.scale.isFinite = true ∧ zeroDouble.lt config.performance.scale = true) :
    recomputePerformanceDefaults longDouble config = .ok (config.withBudgets longDouble) := by
  simp only [recomputePerformanceDefaults, h.1, not_le_of_lt h.2, Bool.not_true, Bool.or_self,
    Bool.false_eq_true, if_false]

theorem applyPerformanceScale_eq (longDouble : LongDouble)
    (h : config.performance.scale.isFinite = true ∧ zeroDouble.lt config.performance.scale = true) :
    applyPerformanceScale longDouble config = .ok (config.withBudgets longDouble) := by
  unfold applyPerformanceScale
  rw [normalizePerformanceScale_eq h]
  exact recomputePerformanceDefaults_eq longDouble h

/-- The configuration the loader starts from, with the performance section loaded. -/
def ConfigStore.started (store : ConfigStore) (longDouble : LongDouble) (config : AppConfig) :
    AppConfig :=
  AppConfig.withBudgets longDouble
    { store.withDefaults with
      performance := {
        scale := config.performance.scale
        adaptive := config.performance.adaptive } }

/-- A budget that is not scaled is its default. -/
theorem scaledBudget_one (longDouble : LongDouble) {base : UInt64} (hbase : 1 ≤ base)
    (hexact : base < 2 ^ 53) : longDouble.scaledBudget base one = base := by
  have hpositive : 1 ≤ base.toNat := UInt64.le_iff_toNat_le.mp hbase
  have hzero : base ≠ 0 := by
    rintro rfl
    exact absurd hpositive (by decide)
  unfold LongDouble.scaledBudget
  rw [longDouble.product_one base hexact]
  simp only [Nat.not_le.mpr base.toNat_lt, if_false, hzero, UInt64.ofNat_toNat]
  exact if_pos hbase

theorem clampFlush_default (longDouble : LongDouble) :
    longDouble.clampFlush (2.0 * one) 2.0 = 2.0 := by
  have hone : (2.0 * one : Float) = 2.0 := by rfl
  unfold LongDouble.clampFlush
  rw [hone, longDouble.flushOverflows_default]
  rfl

/-- With adaptive performance on, the budgets are the defaults. -/
theorem started_adaptive (store : ConfigStore) (longDouble : LongDouble)
    (hadaptive : config.performance.adaptive.enabled = true) :
    store.started longDouble config =
      { store.withDefaults with
        performance := {
          scale := config.performance.scale
          adaptive := config.performance.adaptive } } := by
  have hscale : PerformanceConfig.budgetScale {
      scale := config.performance.scale
      adaptive := config.performance.adaptive } = one := by
    unfold PerformanceConfig.budgetScale
    rw [hadaptive]
    rfl
  simp (disch := decide) only [ConfigStore.started, AppConfig.withBudgets, hscale, recomputed,
    scaledBudget_one, clampFlush_default, Bool.false_eq_true, if_false]
  rfl

/-! ### Saving -/

/-- The document that is saved. -/
def savedDocument (config scaled : AppConfig) : List (String × YamlNode) := [
  ("performance", writePerformanceConfig config),
  ("app", writeAppConfig config),
  ("gui", writeGuiConfig config scaled),
  ("protocol", writeProtocolConfig config),
  ("receive", writeReceiveConfig config scaled),
  ("scripting", writeScriptingConfig config scaled),
  ("logging", writeLoggingConfig config),
  ("communication", writeCommunicationConfig config)]

theorem saveText_eq (store : ConfigStore) (h : config.InRange longDouble) :
    store.saveText longDouble config =
      .ok (.map (savedDocument config (store.started longDouble config))) := by
  have hbuild : buildConfigYamlRoot longDouble config store.withDefaults =
      .ok (.map (savedDocument config (store.started longDouble config))) := by
    by_cases hadaptive : config.performance.adaptive.enabled = true
    · have hdefaults : scaleDefaults longDouble config store.withDefaults =
          .ok store.withDefaults := if_pos hadaptive
      refine bind_eq hdefaults ?_
      rw [started_adaptive store longDouble hadaptive]
      rfl
    · have hscaled : scaleDefaults longDouble config store.withDefaults =
          .ok (store.started longDouble config) := by
        refine (if_neg hadaptive).trans ?_
        rw [normalizePerformanceScale_eq h.scale]
        exact applyPerformanceScale_eq longDouble h.scale
      exact bind_eq hscaled rfl
  unfold ConfigStore.saveText
  rw [hbuild]

/-! ### Loading -/

theorem loadPerformanceConfig_eq (store : ConfigStore) (h : config.InRange longDouble)
    {entries : List (String × YamlNode)}
    (hentry : entries.lookup "performance" = some (writePerformanceConfig config)) :
    loadPerformanceConfig longDouble (.map entries) store.withDefaults =
      .ok (store.started longDouble config) := by
  have hadaptive : loadAdaptivePerformance {} (.map [
      ("enabled", yaml config.performance.adaptive.enabled),
      ("max_multiplier",
        yaml (normalizeAdaptiveMaxMultiplier config.performance.adaptive.maxMultiplier))]) =
      .ok config.performance.adaptive := by
    refine read_bind rfl (read_bind rfl ?_)
    rw [normalizeAdaptiveMaxMultiplier_eq h.maxMultiplier,
      normalizeAdaptiveMaxMultiplier_eq h.maxMultiplier]
    rfl
  have hload : loadPerformance {} (writePerformanceConfig config) = .ok {
      scale := config.performance.scale
      adaptive := config.performance.adaptive } := by
    refine read_bind rfl (section_bind rfl hadaptive ?_)
    rw [normalizePerformanceScale_eq h.scale, normalizePerformanceScale_eq h.scale]
    rfl
  refine subscript_bind hentry ?_
  refine bind_eq hload ?_
  by_cases henabled : config.performance.adaptive.enabled = true
  · rw [started_adaptive store longDouble henabled]
    exact if_pos henabled
  · refine (if_neg henabled).trans ?_
    exact applyPerformanceScale_eq longDouble h.scale

/-- What is loaded, before the budgets are recomputed. -/
def AppConfig.loaded (config start : AppConfig) : AppConfig :=
  { start with
    app := config.app
    gui := config.gui
    protocol := config.protocol
    receive := config.receive
    scripting := config.scripting.loaded start.scripting start.scripting
      config.performance.explicitOverrides
    logging := config.logging
    communication := {
      kind := config.communication.kind
      tcpClient := {
        config.communication.tcpClient with
        readBufferBytes := start.communication.tcpClient.readBufferBytes }
      tcpServer := {
        config.communication.tcpServer with
        readBufferBytes := start.communication.tcpServer.readBufferBytes }
      serial := {
        config.communication.serial with
        readBufferBytes := start.communication.serial.readBufferBytes }
      udpPeer := {
        config.communication.udpPeer with
        readBufferBytes := start.communication.udpPeer.readBufferBytes } }
    performance := {
      config.performance with
      explicitOverrides := config.scripting.writtenFlags start.scripting
        config.performance.explicitOverrides {
          config.gui.realtimeBacklog.writtenFlags start.gui.realtimeBacklog
            config.performance.explicitOverrides {} with
          receiveTransportReadBufferBytes := sizeWritten config.receive.transportReadBufferBytes
            start.receive.transportReadBufferBytes
            config.performance.explicitOverrides.receiveTransportReadBufferBytes } } }

theorem loadConfigYamlRoot_eq (store : ConfigStore) (h : config.InRange longDouble) :
    loadConfigYamlRoot longDouble
      (.map (savedDocument config (store.started longDouble config))) store.withDefaults =
      .ok ((config.loaded (store.started longDouble config)).withBudgets longDouble) := by
  refine bind_eq (loadPerformanceConfig_eq store h rfl) ?_
  refine bind_eq (loadAppConfig_eq rfl _) ?_
  refine bind_eq (loadGuiConfig_eq rfl h.gui rfl rfl rfl rfl) ?_
  refine bind_eq (loadProtocolConfig_eq rfl _) ?_
  refine bind_eq (loadReceiveConfig_eq rfl rfl rfl) ?_
  refine bind_eq (loadScriptingConfig_eq rfl h.storage h.execution ?_ rfl) ?_
  · constructor <;> rfl
  refine bind_eq (loadLoggingConfig_eq rfl rfl) ?_
  refine bind_eq (loadCommunicationConfig_eq rfl _) ?_
  exact recomputePerformanceDefaults_eq longDouble h.scale

/-! ### Budgets -/

/-- A budget that is not set is its scaled default. -/
def SetOrScaled {α : Type} (explicitOverride : Bool) (value scaledDefault : α) : Prop :=
  explicitOverride = true ∨ value = scaledDefault

theorem sizeWritten_iff {explicitOverride : Bool} {value scaledDefault : UInt64} :
    sizeWritten value scaledDefault explicitOverride = explicitOverride ↔
      SetOrScaled explicitOverride value scaledDefault := by
  cases explicitOverride with
  | false => simp [sizeWritten, SetOrScaled]
  | true => simp [sizeWritten, SetOrScaled]

section Budgets

variable (longDouble : LongDouble) (config : AppConfig)

/-- A default size times the scale of the configuration. -/
def AppConfig.scaledSize (base : UInt64) : UInt64 :=
  longDouble.scaledBudget base config.performance.budgetScale

/-- The default flush budget times the scale of the configuration. -/
def AppConfig.scaledFlush : Float :=
  longDouble.clampFlush (2.0 * config.performance.budgetScale) 2.0

/-- Every budget that the user has not set is the default times the scale. -/
structure AppConfig.BudgetsScaled : Prop where
  transportReadBuffer : SetOrScaled
    config.performance.explicitOverrides.receiveTransportReadBufferBytes
    config.receive.transportReadBufferBytes (config.scaledSize longDouble 4096)
  workerRxQueueLimit : SetOrScaled config.performance.explicitOverrides.workerRxQueueLimitBytes
    config.scripting.workerRxQueueLimitBytes (config.scaledSize longDouble (64 * 1024 * 1024))
  workerMemoryBudget : SetOrScaled config.performance.explicitOverrides.workerMemoryBudgetBytes
    config.scripting.workerMemoryBudgetBytes (config.scaledSize longDouble (256 * 1024 * 1024))
  workerOutputQueueLimit : SetOrScaled config.performance.explicitOverrides.workerOutputQueueLimit
    config.scripting.workerOutputQueueLimit (config.scaledSize longDouble 65536)
  workerBatch : SetOrScaled config.performance.explicitOverrides.workerBatchBytes
    config.scripting.workerBatchBytes (config.scaledSize longDouble 8192)
  workerOutputFlush : SetOrScaled config.performance.explicitOverrides.workerOutputFlushBudgetMs
    config.scripting.workerOutputFlushBudgetMs (config.scaledFlush longDouble)
  rxChunk : SetOrScaled config.performance.explicitOverrides.realtimeBacklogRxChunkBytesPerPump
    config.gui.realtimeBacklog.rxChunkBytesPerPump (config.scaledSize longDouble 4096)
  transferFrameRows : SetOrScaled
    config.performance.explicitOverrides.realtimeBacklogTransferFrameRowsPerPump
    config.gui.realtimeBacklog.transferFrameRowsPerPump (config.scaledSize longDouble 2000)
  plotAppends : SetOrScaled
    config.performance.explicitOverrides.realtimeBacklogPlotAppendsPerPump
    config.gui.realtimeBacklog.plotAppendsPerPump (config.scaledSize longDouble 128)
  rawFirstBacklogWarn : SetOrScaled
    config.performance.explicitOverrides.realtimeBacklogRawFirstBacklogWarnBytes
    config.gui.realtimeBacklog.rawFirstBacklogWarnBytes
    (config.scaledSize longDouble (32 * 1024 * 1024))

/-- The flush budget after the round trip. -/
def AppConfig.reloadedFlush : Float :=
  if config.performance.explicitOverrides.workerOutputFlushBudgetMs ||
      doubleChanged config.scripting.workerOutputFlushBudgetMs (config.scaledFlush longDouble) then
    config.scripting.workerOutputFlushBudgetMs
  else config.scaledFlush longDouble

/-- The flags after the round trip. -/
def AppConfig.reloadedFlags : PerformanceExplicitOverrides where
  receiveTransportReadBufferBytes := sizeWritten config.receive.transportReadBufferBytes
    (config.scaledSize longDouble 4096)
    config.performance.explicitOverrides.receiveTransportReadBufferBytes
  workerRxQueueLimitBytes := sizeWritten config.scripting.workerRxQueueLimitBytes
    (config.scaledSize longDouble (64 * 1024 * 1024))
    config.performance.explicitOverrides.workerRxQueueLimitBytes
  workerMemoryBudgetBytes := sizeWritten config.scripting.workerMemoryBudgetBytes
    (config.scaledSize longDouble (256 * 1024 * 1024))
    config.performance.explicitOverrides.workerMemoryBudgetBytes
  workerOutputQueueLimit := sizeWritten config.scripting.workerOutputQueueLimit
    (config.scaledSize longDouble 65536)
    config.performance.explicitOverrides.workerOutputQueueLimit
  workerBatchBytes := sizeWritten config.scripting.workerBatchBytes
    (config.scaledSize longDouble 8192) config.performance.explicitOverrides.workerBatchBytes
  workerOutputFlushBudgetMs := config.performance.explicitOverrides.workerOutputFlushBudgetMs ||
    doubleChanged config.scripting.workerOutputFlushBudgetMs (config.scaledFlush longDouble)
  realtimeBacklogRxChunkBytesPerPump := sizeWritten config.gui.realtimeBacklog.rxChunkBytesPerPump
    (config.scaledSize longDouble 4096)
    config.performance.explicitOverrides.realtimeBacklogRxChunkBytesPerPump
  realtimeBacklogTransferFrameRowsPerPump := sizeWritten
    config.gui.realtimeBacklog.transferFrameRowsPerPump (config.scaledSize longDouble 2000)
    config.performance.explicitOverrides.realtimeBacklogTransferFrameRowsPerPump
  realtimeBacklogPlotAppendsPerPump := sizeWritten config.gui.realtimeBacklog.plotAppendsPerPump
    (config.scaledSize longDouble 128)
    config.performance.explicitOverrides.realtimeBacklogPlotAppendsPerPump
  realtimeBacklogRawFirstBacklogWarnBytes := sizeWritten
    config.gui.realtimeBacklog.rawFirstBacklogWarnBytes
    (config.scaledSize longDouble (32 * 1024 * 1024))
    config.performance.explicitOverrides.realtimeBacklogRawFirstBacklogWarnBytes

variable {config}

/-- A size that is written or left out is recomputed to what it was. -/
theorem recomputed_sizeWritten (value scaledDefault : UInt64) (explicitOverride : Bool) :
    recomputed (sizeWritten value scaledDefault explicitOverride) value scaledDefault = value :=
  sizeWritten_value value scaledDefault explicitOverride

/-- The flush budget is recomputed to what was loaded. -/
theorem recomputed_flush (h : config.InRange longDouble) :
    longDouble.clampFlush (recomputed
      (config.reloadedFlags longDouble).workerOutputFlushBudgetMs
      (config.reloadedFlush longDouble) (2.0 * config.performance.budgetScale)) 2.0 =
      config.reloadedFlush longDouble := by
  have hkept : longDouble.clampFlush config.scripting.workerOutputFlushBudgetMs 2.0 =
      config.scripting.workerOutputFlushBudgetMs := by
    unfold LongDouble.clampFlush
    rw [h.flush.1, h.flush.2.1, h.flush.2.2]
    rfl
  cases hwritten : (config.reloadedFlags longDouble).workerOutputFlushBudgetMs with
  | true =>
    have hflush : config.reloadedFlush longDouble = config.scripting.workerOutputFlushBudgetMs :=
      if_pos hwritten
    rw [hflush]
    exact hkept
  | false =>
    have hflush : config.reloadedFlush longDouble = config.scaledFlush longDouble :=
      if_neg (by simpa [AppConfig.reloadedFlags] using hwritten)
    rw [hflush]
    rfl

/-- **What the round trip makes of a configuration**: the sizes are kept. -/
theorem loaded_withBudgets (store : ConfigStore) (h : config.InRange longDouble) :
    ((config.loaded (store.started longDouble config)).withBudgets longDouble).settings =
      AppConfig.settings { config with
        scripting := {
          config.scripting with
          workerOutputFlushBudgetMs := config.reloadedFlush longDouble
          drainRequestOutputsUnbounded := false }
        performance := {
          config.performance with
          explicitOverrides := config.reloadedFlags longDouble } } := by
  have hreceive : ((config.loaded (store.started longDouble config)).withBudgets
      longDouble).receive = config.receive := by
    show { config.receive with
      transportReadBufferBytes := recomputed (sizeWritten config.receive.transportReadBufferBytes
        (config.scaledSize longDouble 4096)
        config.performance.explicitOverrides.receiveTransportReadBufferBytes)
        config.receive.transportReadBufferBytes (config.scaledSize longDouble 4096) } = config.receive
    rw [recomputed_sizeWritten]
  have hgui : ((config.loaded (store.started longDouble config)).withBudgets
      longDouble).gui = config.gui := by
    show { config.gui with
      realtimeBacklog := {
        config.gui.realtimeBacklog with
        rxChunkBytesPerPump := recomputed (sizeWritten config.gui.realtimeBacklog.rxChunkBytesPerPump
          (config.scaledSize longDouble 4096)
          config.performance.explicitOverrides.realtimeBacklogRxChunkBytesPerPump)
          config.gui.realtimeBacklog.rxChunkBytesPerPump (config.scaledSize longDouble 4096)
        transferFrameRowsPerPump := recomputed (sizeWritten config.gui.realtimeBacklog.transferFrameRowsPerPump
          (config.scaledSize longDouble 2000)
          config.performance.explicitOverrides.realtimeBacklogTransferFrameRowsPerPump)
          config.gui.realtimeBacklog.transferFrameRowsPerPump (config.scaledSize longDouble 2000)
        plotAppendsPerPump := recomputed (sizeWritten config.gui.realtimeBacklog.plotAppendsPerPump
          (config.scaledSize longDouble 128)
          config.performance.explicitOverrides.realtimeBacklogPlotAppendsPerPump)
          config.gui.realtimeBacklog.plotAppendsPerPump (config.scaledSize longDouble 128)
        rawFirstBacklogWarnBytes := recomputed (sizeWritten config.gui.realtimeBacklog.rawFirstBacklogWarnBytes
          (config.scaledSize longDouble (32 * 1024 * 1024))
          config.performance.explicitOverrides.realtimeBacklogRawFirstBacklogWarnBytes)
          config.gui.realtimeBacklog.rawFirstBacklogWarnBytes (config.scaledSize longDouble (32 * 1024 * 1024)) } } = config.gui
    iterate 4 rw [recomputed_sizeWritten]
  have hscripting : ((config.loaded (store.started longDouble config)).withBudgets
      longDouble).scripting =
      { config.scripting with
        workerOutputFlushBudgetMs := config.reloadedFlush longDouble
        drainRequestOutputsUnbounded := false } := by
    show { config.scripting with
      workerRxQueueLimitBytes := recomputed (sizeWritten config.scripting.workerRxQueueLimitBytes
        (config.scaledSize longDouble (64 * 1024 * 1024))
        config.performance.explicitOverrides.workerRxQueueLimitBytes)
        config.scripting.workerRxQueueLimitBytes (config.scaledSize longDouble (64 * 1024 * 1024))
      workerMemoryBudgetBytes := recomputed (sizeWritten config.scripting.workerMemoryBudgetBytes
        (config.scaledSize longDouble (256 * 1024 * 1024))
        config.performance.explicitOverrides.workerMemoryBudgetBytes)
        config.scripting.workerMemoryBudgetBytes (config.scaledSize longDouble (256 * 1024 * 1024))
      workerOutputQueueLimit := recomputed (sizeWritten config.scripting.workerOutputQueueLimit
        (config.scaledSize longDouble 65536)
        config.performance.explicitOverrides.workerOutputQueueLimit)
        config.scripting.workerOutputQueueLimit (config.scaledSize longDouble 65536)
      workerBatchBytes := recomputed (sizeWritten config.scripting.workerBatchBytes
        (config.scaledSize longDouble 8192)
        config.performance.explicitOverrides.workerBatchBytes)
        config.scripting.workerBatchBytes (config.scaledSize longDouble 8192)
      workerOutputFlushBudgetMs := longDouble.clampFlush (recomputed
        (config.reloadedFlags longDouble).workerOutputFlushBudgetMs
        (config.reloadedFlush longDouble) (2.0 * config.performance.budgetScale)) 2.0
      drainRequestOutputsUnbounded := false } = _
    iterate 4 rw [recomputed_sizeWritten]
    rw [recomputed_flush longDouble h]
  unfold AppConfig.settings
  rw [hreceive, hgui, hscripting]
  rfl

/-- The flags and the flush budget come back if every budget is set or scaled. -/
theorem reloaded_iff :
    config.reloadedFlags longDouble = config.performance.explicitOverrides ∧
        config.reloadedFlush longDouble = config.scripting.workerOutputFlushBudgetMs ↔
      config.BudgetsScaled longDouble := by
  constructor
  · rintro ⟨hflags, hflush⟩
    have hflag {field : PerformanceExplicitOverrides → Bool} :
        field (config.reloadedFlags longDouble) = field config.performance.explicitOverrides :=
      congrArg field hflags
    exact {
      transportReadBuffer := sizeWritten_iff.mp (@hflag (·.receiveTransportReadBufferBytes))
      workerRxQueueLimit := sizeWritten_iff.mp (@hflag (·.workerRxQueueLimitBytes))
      workerMemoryBudget := sizeWritten_iff.mp (@hflag (·.workerMemoryBudgetBytes))
      workerOutputQueueLimit := sizeWritten_iff.mp (@hflag (·.workerOutputQueueLimit))
      workerBatch := sizeWritten_iff.mp (@hflag (·.workerBatchBytes))
      workerOutputFlush := by
        by_cases hset : config.performance.explicitOverrides.workerOutputFlushBudgetMs = true
        · exact .inl hset
        · -- the budget was left out, so it came back as the scaled default
          have hleft : (config.reloadedFlags longDouble).workerOutputFlushBudgetMs = false :=
            (@hflag (·.workerOutputFlushBudgetMs)).trans (Bool.not_eq_true _ ▸ hset)
          have hscaled : config.reloadedFlush longDouble = config.scaledFlush longDouble :=
            if_neg (by simpa [AppConfig.reloadedFlags] using hleft)
          exact .inr (hflush.symm.trans hscaled)
      rxChunk := sizeWritten_iff.mp (@hflag (·.realtimeBacklogRxChunkBytesPerPump))
      transferFrameRows :=
        sizeWritten_iff.mp (@hflag (·.realtimeBacklogTransferFrameRowsPerPump))
      plotAppends := sizeWritten_iff.mp (@hflag (·.realtimeBacklogPlotAppendsPerPump))
      rawFirstBacklogWarn :=
        sizeWritten_iff.mp (@hflag (·.realtimeBacklogRawFirstBacklogWarnBytes)) }
  · intro h
    have hwritten : (config.performance.explicitOverrides.workerOutputFlushBudgetMs ||
        doubleChanged config.scripting.workerOutputFlushBudgetMs (config.scaledFlush longDouble)) =
        config.performance.explicitOverrides.workerOutputFlushBudgetMs := by
      rcases h.workerOutputFlush with hset | hscaled
      · rw [hset]
        rfl
      · rw [hscaled, doubleChanged_self, Bool.or_false]
    constructor
    · unfold AppConfig.reloadedFlags
      rw [sizeWritten_iff.mpr h.transportReadBuffer, sizeWritten_iff.mpr h.workerRxQueueLimit,
        sizeWritten_iff.mpr h.workerMemoryBudget, sizeWritten_iff.mpr h.workerOutputQueueLimit,
        sizeWritten_iff.mpr h.workerBatch, hwritten, sizeWritten_iff.mpr h.rxChunk,
        sizeWritten_iff.mpr h.transferFrameRows, sizeWritten_iff.mpr h.plotAppends,
        sizeWritten_iff.mpr h.rawFirstBacklogWarn]
    · unfold AppConfig.reloadedFlush
      rw [hwritten]
      rcases h.workerOutputFlush with hset | hscaled
      · exact if_pos hset
      · rw [← hscaled]
        exact ite_self _

end Budgets

/-! ### The round trip -/

theorem loadText_savedDocument (store : ConfigStore) (h : config.InRange longDouble)
    (sourcePath : String) :
    ∃ configPath,
      store.loadText longDouble
        (.map (savedDocument config (store.started longDouble config))) sourcePath =
      { config :=
          { (config.loaded (store.started longDouble config)).withBudgets longDouble with
            configPath := configPath }
        resolvedPath := if sourcePath = "" then store.defaultConfigPath else sourcePath
        loadedFromDisk := true } := by
  have hread : store.readDocument longDouble
      (.map (savedDocument config (store.started longDouble config))) =
      .ok ((config.loaded (store.started longDouble config)).withBudgets longDouble) :=
    loadConfigYamlRoot_eq store h
  unfold ConfigStore.loadText
  rw [hread]
  exact ⟨_, rfl⟩

/-- A platform on which nothing is scaled but by one. -/
def plainLongDouble : LongDouble where
  product base scale :=
    if scale.beq one then some base.toNat
    else if scale.isFinite then some (base.toFloat * scale).toUInt64.toNat
    else none
  product_one _ _ := rfl
  flushOverflows flush := Float.le 18446744073709552.0 flush
  flushOverflows_default := by decide +kernel
  largestFlush := 18446744073709548.0

/-- The defaults, with request outputs drained without bound or not. -/
def drainConfig (drain : Bool) : AppConfig :=
  { scripting := { drainRequestOutputsUnbounded := drain } }

theorem defaultGui_inRange : GuiConfig.InRange {} where
  wave := {
    fixedWidth := by decide +kernel
    adaptiveRatio := by decide +kernel
    nameWidth := by decide +kernel
    fitMultiplier := by decide +kernel
    overviewSelection := {
      fixedColor _ hcolor := by cases hcolor
      minAlpha _ halpha := by cases halpha
      maxAlpha _ halpha := by cases halpha
      ordered := rfl } }
  comboLimit := by decide
  comboDebounce := by decide
  lastDataExport hvalid := by cases hvalid

theorem defaultStorage_inRange : StorageConfig.InRange {} where
  queueBytes := by decide
  batchRows := by decide
  batchInterval := by decide
  recordMaxBytes := by decide
  maxVolumeBytes := by decide
  recordMaxAge := ⟨30, by decide, by decide⟩
  maintenanceInterval := by decide
  kvValueBytes := by decide
  kvTotalBytes := by decide
  kvDepth := by decide

theorem defaultExecution_inRange : ExecutionConfig.InRange {} where
  loadTimeoutMs := by decide
  callbackTimeoutMs := by decide

theorem defaultScale : (1.0 : Float).isFinite = true ∧ zeroDouble.lt 1.0 = true := by
  decide +kernel

theorem defaultMultiplier : (1.0 : Float).isFinite = true ∧ (1.0 : Float).le zeroDouble = false ∧
    (1.0 : Float).lt 0.25 = false ∧ Float.lt 4.0 1.0 = false := by
  decide +kernel

theorem defaultFlush : (2.0 : Float).isFinite = true ∧ (2.0 : Float).lt zeroDouble = false ∧
    plainLongDouble.flushOverflows 2.0 = false := by
  decide +kernel

theorem drainConfig_inRange (drain : Bool) : (drainConfig drain).InRange plainLongDouble where
  scale := defaultScale
  maxMultiplier := defaultMultiplier
  gui := defaultGui_inRange
  storage := defaultStorage_inRange
  execution := defaultExecution_inRange
  flush := defaultFlush

theorem defaults_scaledSize {base : UInt64} (hbase : 1 ≤ base)
    (hexact : base < 2 ^ 53) : (drainConfig false).scaledSize plainLongDouble base = base := by
  have hscale : (1.0 : Float) = one := by rfl
  show plainLongDouble.scaledBudget base 1.0 = base
  rw [hscale]
  exact scaledBudget_one plainLongDouble hbase hexact

theorem defaults_budgetsScaled : (drainConfig false).BudgetsScaled plainLongDouble where
  transportReadBuffer := .inr (defaults_scaledSize (by decide) (by decide)).symm
  workerRxQueueLimit := .inr (defaults_scaledSize (by decide) (by decide)).symm
  workerMemoryBudget := .inr (defaults_scaledSize (by decide) (by decide)).symm
  workerOutputQueueLimit := .inr (defaults_scaledSize (by decide) (by decide)).symm
  workerBatch := .inr (defaults_scaledSize (by decide) (by decide)).symm
  workerOutputFlush := .inr (clampFlush_default plainLongDouble).symm
  rxChunk := .inr (defaults_scaledSize (by decide) (by decide)).symm
  transferFrameRows := .inr (defaults_scaledSize (by decide) (by decide)).symm
  plotAppends := .inr (defaults_scaledSize (by decide) (by decide)).symm
  rawFirstBacklogWarn := .inr (defaults_scaledSize (by decide) (by decide)).symm

end ProtoScope.Config
