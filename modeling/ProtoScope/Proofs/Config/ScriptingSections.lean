/-
The other sections come back as they were written.

The storage's bounds are clamped when they are read, and its age is written in days.  One
field of the worker is read and never written: it comes back as it was before.
-/
import ProtoScope.Proofs.Config.GuiSections

namespace ProtoScope.Config

open ProtoScope.Plot (zeroDouble)

/-! ### Ranges -/

structure StorageConfig.InRange (storage : StorageConfig) : Prop where
  queueBytes : 1024 ≤ storage.queueBytes ∧ storage.queueBytes ≤ 1024 * 1024 * 1024
  batchRows : 1 ≤ storage.batchRows ∧ storage.batchRows ≤ 100000
  batchInterval : 1 ≤ storage.batchInterval ∧ storage.batchInterval ≤ 60000
  recordMaxBytes : 1 ≤ storage.recordMaxBytes ∧ storage.recordMaxBytes ≤ 2 ^ 50
  maxVolumeBytes : 1 ≤ storage.maxVolumeBytes ∧ storage.maxVolumeBytes ≤ 2 ^ 50
  /-- whole days, in microseconds -/
  recordMaxAge : ∃ days : ℕ, days ≤ 36500 ∧
    storage.recordMaxAge = Int64.ofNat days * 24 * 3600000000
  maintenanceInterval : 1 ≤ storage.maintenanceInterval ∧ storage.maintenanceInterval ≤ 60000
  kvValueBytes : 1 ≤ storage.kvValueBytes ∧ storage.kvValueBytes ≤ 256 * 1024
  kvTotalBytes : 1 ≤ storage.kvTotalBytes ∧ storage.kvTotalBytes ≤ 1024 * 1024 * 1024
  kvDepth : 1 ≤ storage.kvDepth ∧ storage.kvDepth ≤ 16

structure ExecutionConfig.InRange (execution : ExecutionConfig) : Prop where
  loadTimeoutMs : 1 ≤ execution.loadTimeoutMs ∧ execution.loadTimeoutMs ≤ 3600000
  callbackTimeoutMs : 1 ≤ execution.callbackTimeoutMs ∧ execution.callbackTimeoutMs ≤ 3600000

theorem clamp_size {value lower upper : UInt64} (h : lower ≤ value ∧ value ≤ upper) :
    clamp value lower upper = value := by
  unfold clamp
  rw [if_neg (UInt64.not_lt.mpr h.1), if_neg (UInt64.not_lt.mpr h.2)]

theorem clamp_int {value lower upper : Int64} (h : lower ≤ value ∧ value ≤ upper) :
    clamp value lower upper = value := by
  unfold clamp
  rw [if_neg (Int64.not_lt.mpr h.1), if_neg (Int64.not_lt.mpr h.2)]

/-! ### Days -/

theorem toInt_ofNat_days {days : ℕ} (h : days ≤ 36500) : (Int64.ofNat days).toInt = days :=
  Int64.toInt_ofNat_of_lt (by omega)

/-- An age of whole days is written as its days. -/
theorem retentionDays_eq {days : ℕ} (h : days ≤ 36500) :
    retentionDays (Int64.ofNat days * 24 * 3600000000) = Int64.ofNat days := by
  have hhours : (Int64.ofNat days * 24).toInt = days * 24 := by
    rw [Int64.toInt_mul, toInt_ofNat_days h]
    show Int.bmod (days * 24) (2 ^ 64) = _
    exact Int.bmod_eq_of_le (by omega) (by omega)
  have hage : (Int64.ofNat days * 24 * 3600000000).toInt = days * 24 * 3600000000 := by
    rw [Int64.toInt_mul, hhours]
    show Int.bmod (days * 24 * 3600000000) (2 ^ 64) = _
    exact Int.bmod_eq_of_le (by omega) (by omega)
  have hback : (Int64.ofNat days * 24 * 3600000000 / 3600000000).toInt = days * 24 := by
    rw [Int64.toInt_div, hage]
    show Int.bmod (Int.tdiv (days * 24 * 3600000000) 3600000000) (2 ^ 64) = _
    rw [Int.mul_tdiv_cancel _ (by decide)]
    exact Int.bmod_eq_of_le (by omega) (by omega)
  refine Int64.toInt_inj.mp ?_
  rw [retentionDays, Int64.toInt_div, hback, toInt_ofNat_days h]
  show Int.bmod (Int.tdiv (days * 24) 24) (2 ^ 64) = _
  rw [Int.mul_tdiv_cancel _ (by decide)]
  exact Int.bmod_eq_of_le (by omega) (by omega)

theorem clamp_days {days : ℕ} (h : days ≤ 36500) :
    clamp (Int64.ofNat days) 0 36500 = Int64.ofNat days := by
  refine clamp_int ⟨?_, ?_⟩
  · rw [Int64.le_iff_toInt_le, toInt_ofNat_days h]
    exact Int.natCast_nonneg days
  · rw [Int64.le_iff_toInt_le, toInt_ofNat_days h]
    show (days : ℤ) ≤ 36500
    omega

/-! ### Protocols and receiving -/

theorem loadProtocolTx_eq (tx written : ProtocolTxConfig) :
    loadProtocolTx tx (.map [
      ("send_timeout_ms", yaml written.sendTimeoutMs),
      ("request_timeout_ms", yaml written.requestTimeoutMs),
      ("max_pending", yaml written.maxPending),
      ("overflow_policy", yaml written.overflowPolicy),
      ("overflow_notify", yaml written.overflowNotify)]) = .ok written := by
  iterate 5 refine read_bind rfl ?_
  rfl

variable {config : AppConfig} {entries : List (String × YamlNode)}

theorem loadProtocolConfig_eq
    (hentry : entries.lookup "protocol" = some (writeProtocolConfig config))
    (protocol : ProtocolConfig) :
    loadProtocolConfig (.map entries) protocol = .ok config.protocol := by
  refine subscript_bind hentry ?_
  iterate 2 refine read_bind rfl ?_
  exact section_bind rfl (loadProtocolTx_eq _ config.protocol.tx) rfl

theorem loadAppConfig_eq (hentry : entries.lookup "app" = some (writeAppConfig config))
    (app : AppRuntimeConfig) : loadAppConfig (.map entries) app = .ok config.app := by
  refine subscript_bind hentry ?_
  iterate 3 refine read_bind rfl ?_
  refine section_bind rfl (read_bind rfl (read_bind rfl rfl)) ?_
  exact section_eq rfl (read_bind rfl rfl)

theorem loadReceiveConfig_eq {scaled base : AppConfig}
    (hentry : entries.lookup "receive" = some (writeReceiveConfig config scaled))
    (hbase : base.receive = scaled.receive)
    (hflags : base.performance.explicitOverrides.receiveTransportReadBufferBytes = false) :
    loadReceiveConfig (.map entries) base = .ok { base with
      receive := config.receive
      performance := {
        base.performance with
        explicitOverrides := {
          base.performance.explicitOverrides with
          receiveTransportReadBufferBytes := sizeWritten config.receive.transportReadBufferBytes
            scaled.receive.transportReadBufferBytes
            config.performance.explicitOverrides.receiveTransportReadBufferBytes } } } := by
  refine subscript_bind hentry ?_
  have hload : loadReceive base.receive base.performance.explicitOverrides
      (writeReceiveConfig config scaled) = .ok (config.receive,
        { base.performance.explicitOverrides with
          receiveTransportReadBufferBytes := sizeWritten config.receive.transportReadBufferBytes
            scaled.receive.transportReadBufferBytes
            config.performance.explicitOverrides.receiveTransportReadBufferBytes }) := by
    unfold loadReceive
    rw [hflags, hbase]
    refine readSize_bind config.receive.transportReadBufferBytes _
      config.performance.explicitOverrides.receiveTransportReadBufferBytes
      (by simp [List.lookup_cons]) ?_
    refine section_bind rfl (read_bind rfl (read_bind rfl rfl)) ?_
    rfl
  refine bind_eq hload ?_
  rfl

/-! ### Logs and transports -/

theorem parseLogLevel_text (level : LogLevel) : parseLogLevel (enumToText level) = level := by
  cases level <;> rfl

theorem loadPayloadPreview_eq (logging : AppLoggingConfig) (enabled : Bool) (maxBytes : UInt64) :
    loadPayloadPreview logging (.map [
      ("enabled", yaml enabled), ("max_bytes", yaml maxBytes)]) =
      .ok { logging with payloadPreviewEnabled := enabled, payloadPreviewMaxBytes := maxBytes } := by
  iterate 2 refine read_bind rfl ?_
  rfl

theorem loadLoggingConfig_eq (hentry : entries.lookup "logging" = some (writeLoggingConfig config))
    {logging : AppLoggingConfig} (hpath : logging.filePath = "") :
    loadLoggingConfig (.map entries) logging = .ok config.logging := by
  refine subscript_bind hentry ?_
  refine read_bind rfl ?_
  -- a path that is empty is left out, and is empty before
  have hfile : readScalar (some (writeLoggingConfig config)) "file_path" logging.filePath =
      .ok config.logging.filePath := by
    by_cases hempty : config.logging.filePath = ""
    · refine (readScalar_missing (by simp [List.lookup_cons, entryIf, hempty])).trans ?_
      rw [hpath, hempty]
    · exact readScalar_eq (by simp [List.lookup_cons, List.lookup_append, hempty])
  refine bind_eq hfile ?_
  refine read_bind (show _ = some (yaml config.logging.maxFileSizeBytes) by
    simp [List.lookup_cons, List.lookup_append]) ?_
  refine read_bind (show _ = some (yaml config.logging.maxFiles) by
    simp [List.lookup_cons, List.lookup_append]) ?_
  refine section_eq (show _ = some (.map [
      ("enabled", yaml config.logging.payloadPreviewEnabled),
      ("max_bytes", yaml config.logging.payloadPreviewMaxBytes)]) by
    simp [List.lookup_cons, List.lookup_append]) ((loadPayloadPreview_eq _ _ _).trans ?_)
  rw [parseLogLevel_text]

theorem loadCommunicationConfig_eq
    (hentry : entries.lookup "communication" = some (writeCommunicationConfig config))
    (communication : CommDockState) :
    loadCommunicationConfig (.map entries) communication = .ok {
      kind := config.communication.kind
      tcpClient := {
        config.communication.tcpClient with
        readBufferBytes := communication.tcpClient.readBufferBytes }
      tcpServer := {
        config.communication.tcpServer with
        readBufferBytes := communication.tcpServer.readBufferBytes }
      serial := {
        config.communication.serial with
        readBufferBytes := communication.serial.readBufferBytes }
      udpPeer := {
        config.communication.udpPeer with
        readBufferBytes := communication.udpPeer.readBufferBytes } } := by
  refine subscript_bind hentry ?_
  refine read_bind rfl ?_
  refine section_bind rfl (read_bind rfl (read_bind rfl rfl)) ?_
  refine section_bind rfl (read_bind rfl (read_bind rfl (read_bind rfl rfl))) ?_
  refine section_bind rfl (read_bind rfl (read_bind rfl (read_bind rfl (read_bind rfl
    (read_bind rfl (read_bind rfl rfl)))))) ?_
  refine section_bind rfl (read_bind rfl (read_bind rfl (read_bind rfl (read_bind rfl rfl)))) ?_
  rw [lookupEnum_enumToText]
  rfl

/-! ### Scripts -/

theorem loadScriptingStorage_eq {written : ScriptingConfig} (h : written.storage.InRange)
    (scripting : ScriptingConfig) :
    loadScriptingStorage scripting (writeScriptingStorage written) = .ok { scripting with
      storageRootDir := written.storageRootDir
      storage := written.storage } := by
  obtain ⟨days, hdays, hage⟩ := h.recordMaxAge
  iterate 11 refine read_bind rfl ?_
  rw [hage, retentionDays_eq hdays, clamp_days hdays, ← hage, clamp_size h.queueBytes,
    clamp_size h.batchRows, clamp_int h.batchInterval, clamp_size h.recordMaxBytes,
    clamp_size h.maxVolumeBytes, clamp_int h.maintenanceInterval, clamp_size h.kvValueBytes,
    clamp_size h.kvTotalBytes, clamp_size h.kvDepth]
  rfl

theorem loadExecution_eq {written : ExecutionConfig} (h : written.InRange) :
    loadExecution (.map [
      ("load_timeout_ms", yaml written.loadTimeoutMs),
      ("callback_timeout_ms", yaml written.callbackTimeoutMs)]) = .ok written := by
  iterate 2 refine read_bind rfl ?_
  rw [clamp_size h.loadTimeoutMs, clamp_size h.callbackTimeoutMs]
  rfl

/-- The flush budget is written if it is set or if it differs from its scaled default. -/
def flushWritten (scripting scaled : ScriptingConfig) (explicitOverride : Bool) : Bool :=
  explicitOverride ||
    doubleChanged scripting.workerOutputFlushBudgetMs scaled.workerOutputFlushBudgetMs

@[simp]
theorem lookup_writePerformanceDouble (other key : String) (value scaledDefault : Float)
    (explicitOverride : Bool) :
    (writePerformanceDouble other value scaledDefault explicitOverride).lookup key =
      if key == other then
        if explicitOverride || doubleChanged value scaledDefault then some (yaml value) else none
      else none :=
  lookup_entryIf _ other key _

/-- What the worker's section loads: everything but the field that is not written, which is
what it was. -/
def ScriptingConfig.loadedWorker (written scaled base : ScriptingConfig)
    (explicitOverrides : PerformanceExplicitOverrides) : ScriptingConfig :=
  { base with
    workerEnabled := written.workerEnabled
    workerRxQueueLimitBytes := written.workerRxQueueLimitBytes
    workerMemoryBudgetBytes := written.workerMemoryBudgetBytes
    workerMemoryBudgetAvailableRatio := written.workerMemoryBudgetAvailableRatio
    workerOutputQueueLimit := written.workerOutputQueueLimit
    workerBatchBytes := written.workerBatchBytes
    workerBackpressureEnabled := written.workerBackpressureEnabled
    workerBackpressureHighWatermark := written.workerBackpressureHighWatermark
    workerBackpressureLowWatermark := written.workerBackpressureLowWatermark
    workerOutputFlushBudgetMs :=
      if flushWritten written scaled explicitOverrides.workerOutputFlushBudgetMs then
        written.workerOutputFlushBudgetMs
      else scaled.workerOutputFlushBudgetMs }

/-- Whether the budgets of the worker are written. -/
def ScriptingConfig.writtenFlags (scripting scaled : ScriptingConfig)
    (explicitOverrides flags : PerformanceExplicitOverrides) : PerformanceExplicitOverrides :=
  { flags with
    workerRxQueueLimitBytes := sizeWritten scripting.workerRxQueueLimitBytes
      scaled.workerRxQueueLimitBytes explicitOverrides.workerRxQueueLimitBytes
    workerMemoryBudgetBytes := sizeWritten scripting.workerMemoryBudgetBytes
      scaled.workerMemoryBudgetBytes explicitOverrides.workerMemoryBudgetBytes
    workerOutputQueueLimit := sizeWritten scripting.workerOutputQueueLimit
      scaled.workerOutputQueueLimit explicitOverrides.workerOutputQueueLimit
    workerBatchBytes := sizeWritten scripting.workerBatchBytes
      scaled.workerBatchBytes explicitOverrides.workerBatchBytes
    workerOutputFlushBudgetMs := flushWritten scripting scaled
      explicitOverrides.workerOutputFlushBudgetMs }

/-- The budgets of the worker are the scaled defaults and none is set. -/
structure ScriptingConfig.IsScaled (base scaled : ScriptingConfig)
    (flags : PerformanceExplicitOverrides) : Prop where
  rxQueue : base.workerRxQueueLimitBytes = scaled.workerRxQueueLimitBytes
  memory : base.workerMemoryBudgetBytes = scaled.workerMemoryBudgetBytes
  outputQueue : base.workerOutputQueueLimit = scaled.workerOutputQueueLimit
  batch : base.workerBatchBytes = scaled.workerBatchBytes
  flush : base.workerOutputFlushBudgetMs = scaled.workerOutputFlushBudgetMs
  rxQueueFlag : flags.workerRxQueueLimitBytes = false
  memoryFlag : flags.workerMemoryBudgetBytes = false
  outputQueueFlag : flags.workerOutputQueueLimit = false
  batchFlag : flags.workerBatchBytes = false
  flushFlag : flags.workerOutputFlushBudgetMs = false

theorem loadScriptingWorker_eq {base scaled : ScriptingConfig}
    {flags : PerformanceExplicitOverrides} (hbase : base.IsScaled scaled flags)
    (written : ScriptingConfig) (explicitOverrides : PerformanceExplicitOverrides) :
    loadScriptingWorker base flags (writeScriptingWorker written scaled explicitOverrides) =
      .ok (written.loadedWorker scaled base explicitOverrides,
        written.writtenFlags scaled explicitOverrides flags) := by
  unfold loadScriptingWorker
  rw [hbase.rxQueue, hbase.memory, hbase.outputQueue, hbase.batch, hbase.flush, hbase.rxQueueFlag,
    hbase.memoryFlag, hbase.outputQueueFlag, hbase.batchFlag, hbase.flushFlag]
  refine read_bind rfl ?_
  refine readSize_bind written.workerRxQueueLimitBytes _
    explicitOverrides.workerRxQueueLimitBytes
    (by simp [List.lookup_cons, List.lookup_append]) ?_
  refine readSize_bind written.workerMemoryBudgetBytes _
    explicitOverrides.workerMemoryBudgetBytes
    (by simp [List.lookup_cons, List.lookup_append]) ?_
  refine read_bind (show _ = some (yaml written.workerMemoryBudgetAvailableRatio) by
    simp [List.lookup_cons, List.lookup_append]) ?_
  refine readSize_bind written.workerOutputQueueLimit _ explicitOverrides.workerOutputQueueLimit
    (by simp [List.lookup_cons, List.lookup_append]) ?_
  refine readSize_bind written.workerBatchBytes _ explicitOverrides.workerBatchBytes
    (by simp [List.lookup_cons, List.lookup_append]) ?_
  refine read_bind (show _ = some (yaml written.workerBackpressureEnabled) by
    simp [List.lookup_cons, List.lookup_append]) ?_
  refine read_bind (show _ = some (yaml written.workerBackpressureHighWatermark) by
    simp [List.lookup_cons, List.lookup_append]) ?_
  refine read_bind (show _ = some (yaml written.workerBackpressureLowWatermark) by
    simp [List.lookup_cons, List.lookup_append]) ?_
  refine readPerformance_bind (show _ = if flushWritten written scaled
      explicitOverrides.workerOutputFlushBudgetMs
      then some (yaml written.workerOutputFlushBudgetMs) else none by
    simp [List.lookup_cons, List.lookup_append, flushWritten]) ?_
  refine read_missing_bind (by simp [List.lookup_cons, List.lookup_append]) ?_
  rw [Bool.or_false]
  rfl

theorem readStringList_bind {β : Type} {key : String} {values fallback : List String}
    {next : List String → Except String β} {result : Except String β}
    (hentry : entries.lookup key = some (.sequence (values.map yaml)))
    (hnext : next values = result) :
    (readStringList (some (.map entries)) key fallback >>= next) = result := by
  have hstrings : ∀ values : List String, readStrings (values.map yaml) = .ok values := by
    intro values
    induction values with
    | nil => rfl
    | cons value values ih => exact bind_eq (as_yaml value) (bind_eq ih rfl)
  have hread : readStringList (some (.map entries)) key fallback = .ok values := by
    refine subscript_bind hentry ?_
    exact hstrings values
  exact bind_eq hread hnext

theorem loadScriptingFileIo_eq (fileIo written : FileIoConfig) :
    loadScriptingFileIo fileIo (writeScriptingFileIo written) = .ok written := by
  iterate 3 refine read_bind rfl ?_
  refine readStringList_bind rfl ?_
  iterate 5 refine read_bind rfl ?_
  refine section_bind rfl (read_bind rfl (read_bind rfl rfl)) ?_
  exact section_eq rfl (read_bind rfl (read_bind rfl rfl))

/-- What the whole section loads. -/
def ScriptingConfig.loaded (written scaled base : ScriptingConfig)
    (explicitOverrides : PerformanceExplicitOverrides) : ScriptingConfig :=
  { written with
    workerOutputFlushBudgetMs :=
      if flushWritten written scaled explicitOverrides.workerOutputFlushBudgetMs then
        written.workerOutputFlushBudgetMs
      else scaled.workerOutputFlushBudgetMs
    drainRequestOutputsUnbounded := base.drainRequestOutputsUnbounded }

theorem loadPipeline_bind {β : Type} (workerThreads : Option UInt64)
    {next : Option UInt64 → Except String β} {result : Except String β}
    (hentry : entries.lookup "pipeline" = workerThreads.map fun threads => .map [("worker_threads", yaml threads)])
    (hnext : next workerThreads = result) :
    (childNode (some (.map entries)) "pipeline" >>= fun child =>
      whenDefined child none (loadPipeline none) >>= next) = result := by
  cases workerThreads with
  | none => exact section_missing_bind hentry hnext
  | some threads => exact section_bind hentry (subscript_bind rfl (read_bind rfl rfl)) hnext

/-- Behind an entry that may be left out the others are found. -/
theorem lookup_optional_append {α : Type} (value : Option α) (node : α → YamlNode)
    {key other : String} (entries : List (String × YamlNode)) (hkey : (key == other) = false) :
    ((value.toList.map fun value => (other, node value)) ++ entries).lookup key =
      entries.lookup key := by
  cases value with
  | none => rfl
  | some value =>
    rw [Option.toList_some, List.map_singleton, List.singleton_append, List.lookup_cons, hkey]

theorem loadScriptingWorkerConfig_eq {scaled : AppConfig} {base : ScriptingConfig}
    {flags : PerformanceExplicitOverrides} (hstorage : config.scripting.storage.InRange)
    (hexecution : config.scripting.execution.InRange) (hbase : base.IsScaled scaled.scripting flags)
    (hthreads : base.pipelineWorkerThreads = none) :
    loadScriptingWorkerConfig (some (writeScriptingConfig config scaled)) base flags =
      .ok ({ config.scripting.loaded scaled.scripting base config.performance.explicitOverrides with
          fileIo := base.fileIo },
        config.scripting.writtenFlags scaled.scripting config.performance.explicitOverrides
          flags) := by
  refine section_bind ((lookup_optional_append _ _ _ rfl).trans rfl)
    (loadScriptingStorage_eq hstorage _) ?_
  refine section_bind ((lookup_optional_append _ _ _ rfl).trans rfl)
    (loadExecution_eq hexecution) ?_
  rw [hthreads]
  refine loadPipeline_bind config.scripting.pipelineWorkerThreads ?_ ?_
  · cases config.scripting.pipelineWorkerThreads <;> rfl
  · refine section_eq ((lookup_optional_append _ _ _ rfl).trans rfl) ?_
    refine (loadScriptingWorker_eq ?_ _ _).trans rfl
    exact { hbase with }

/-- **The whole section comes back but for one field**, over a configuration whose budgets are
the scaled defaults: `drainRequestOutputsUnbounded` is what it was. -/
theorem loadScriptingConfig_eq {scaled base : AppConfig}
    (hentry : entries.lookup "scripting" = some (writeScriptingConfig config scaled))
    (hstorage : config.scripting.storage.InRange) (hexecution : config.scripting.execution.InRange)
    (hbase : base.scripting.IsScaled scaled.scripting base.performance.explicitOverrides)
    (hthreads : base.scripting.pipelineWorkerThreads = none) :
    loadScriptingConfig (.map entries) base = .ok { base with
      scripting := config.scripting.loaded scaled.scripting base.scripting
        config.performance.explicitOverrides
      performance := {
        base.performance with
        explicitOverrides := config.scripting.writtenFlags scaled.scripting
          config.performance.explicitOverrides base.performance.explicitOverrides } } := by
  refine subscript_bind hentry ?_
  refine bind_eq (loadScriptingWorkerConfig_eq hstorage hexecution hbase hthreads) ?_
  refine section_bind ((lookup_optional_append _ _ _ rfl).trans rfl)
    (loadScriptingFileIo_eq _ _) ?_
  rfl

end ProtoScope.Config
