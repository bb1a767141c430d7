/-
The user interface's section comes back as it was written.

All of its fields are always written, except the backlog's budgets, which come back if they
are written and keep what they were recomputed to if they are not.
-/
import ProtoScope.Proofs.Config.WaveSections

namespace ProtoScope.Config

/-! ### Ranges -/

structure GuiConfig.InRange (gui : GuiConfig) : Prop where
  wave : gui.wave.InRange
  /-- an `int` greater than 0 -/
  comboLimit : 0 < gui.elfSymbolCombo.limit ∧ gui.elfSymbolCombo.limit ≤ 2147483647
  comboDebounce : 0 < gui.elfSymbolCombo.debounceMs
  lastDataExport : gui.lastDataExport.valid = true → gui.lastDataExport.inRange = true

/-! ### Budgets -/

/-- A budget is written if it is set or if it is not its scaled default. -/
def sizeWritten (value scaledDefault : UInt64) (explicitOverride : Bool) : Bool :=
  explicitOverride || value != scaledDefault

/-- A size that is left out is its scaled default, so it comes back either way. -/
theorem sizeWritten_value (value scaledDefault : UInt64) (explicitOverride : Bool) :
    (if sizeWritten value scaledDefault explicitOverride then value else scaledDefault) = value := by
  by_cases hwritten : sizeWritten value scaledDefault explicitOverride = true
  · exact if_pos hwritten
  · have hvalue : value = scaledDefault := by
      simp only [sizeWritten, Bool.or_eq_true, bne_iff_ne, ne_eq, not_or, not_not] at hwritten
      exact hwritten.2
    rw [if_neg hwritten, hvalue]

@[simp]
theorem lookup_writePerformanceSize (other key : String) (value scaledDefault : UInt64)
    (explicitOverride : Bool) :
    (writePerformanceSize other value scaledDefault explicitOverride).lookup key =
      if key == other then
        if sizeWritten value scaledDefault explicitOverride then some (yaml value) else none
      else none :=
  lookup_entryIf _ other key _

/-- A read of a size over its scaled default gives the size and whether it was written. -/
theorem readSize_bind {β : Type} {entries : List (String × YamlNode)} {key : String}
    (value scaledDefault : UInt64) (explicitOverride : Bool)
    {next : UInt64 × Bool → Except String β} {result : Except String β}
    (hentry : entries.lookup key =
      if sizeWritten value scaledDefault explicitOverride then some (yaml value) else none)
    (hnext : next (value, sizeWritten value scaledDefault explicitOverride) = result) :
    (readPerformance (some (.map entries)) key scaledDefault false >>= next) = result := by
  refine readPerformance_bind hentry ?_
  rw [sizeWritten_value, Bool.or_false]
  exact hnext

/-- Whether the budgets of the backlog are written. -/
def GuiRealtimeBacklogConfig.writtenFlags (backlog scaled : GuiRealtimeBacklogConfig)
    (explicitOverrides flags : PerformanceExplicitOverrides) : PerformanceExplicitOverrides :=
  { flags with
    realtimeBacklogRxChunkBytesPerPump := sizeWritten backlog.rxChunkBytesPerPump
      scaled.rxChunkBytesPerPump explicitOverrides.realtimeBacklogRxChunkBytesPerPump
    realtimeBacklogTransferFrameRowsPerPump := sizeWritten backlog.transferFrameRowsPerPump
      scaled.transferFrameRowsPerPump explicitOverrides.realtimeBacklogTransferFrameRowsPerPump
    realtimeBacklogPlotAppendsPerPump := sizeWritten backlog.plotAppendsPerPump
      scaled.plotAppendsPerPump explicitOverrides.realtimeBacklogPlotAppendsPerPump
    realtimeBacklogRawFirstBacklogWarnBytes := sizeWritten backlog.rawFirstBacklogWarnBytes
      scaled.rawFirstBacklogWarnBytes explicitOverrides.realtimeBacklogRawFirstBacklogWarnBytes }

theorem loadRealtimeBacklog_eq {base scaled : GuiRealtimeBacklogConfig} (hbase : base = scaled)
    (backlog : GuiRealtimeBacklogConfig) (explicitOverrides : PerformanceExplicitOverrides) :
    loadRealtimeBacklog base {} (writeRealtimeBacklog backlog scaled explicitOverrides) =
      .ok (backlog, backlog.writtenFlags scaled explicitOverrides {}) := by
  subst hbase
  refine read_bind rfl ?_
  refine readSize_bind backlog.rxChunkBytesPerPump _
    explicitOverrides.realtimeBacklogRxChunkBytesPerPump (by simp [List.lookup_cons, List.lookup_append]) ?_
  refine readSize_bind backlog.transferFrameRowsPerPump _
    explicitOverrides.realtimeBacklogTransferFrameRowsPerPump (by simp [List.lookup_cons, List.lookup_append]) ?_
  refine readSize_bind backlog.plotAppendsPerPump _
    explicitOverrides.realtimeBacklogPlotAppendsPerPump (by simp [List.lookup_cons, List.lookup_append]) ?_
  refine readSize_bind backlog.rawFirstBacklogWarnBytes _
    explicitOverrides.realtimeBacklogRawFirstBacklogWarnBytes (by simp [List.lookup_cons, List.lookup_append]) ?_
  refine read_bind (show _ = some (yaml backlog.derivedBacklogDegradeEnabled) by
    simp [List.lookup_cons, List.lookup_append]) ?_
  refine read_bind (show _ = some (yaml backlog.discardBacklogOnDisconnect) by
    simp [List.lookup_cons, List.lookup_append]) ?_
  refine read_bind (show _ = some (yaml backlog.pumpMinIntervalMs) by
    simp [List.lookup_cons, List.lookup_append]) ?_
  rfl

/-! ### Sections with all their fields -/

theorem loadLogHistory_eq (history written : GuiLogHistoryConfig) :
    loadLogHistory history (.map [
      ("transfer_raw_limit", yaml written.transferRawLimit),
      ("transfer_frame_limit", yaml written.transferFrameLimit),
      ("host_limit", yaml written.hostLimit),
      ("script_limit", yaml written.scriptLimit),
      ("request_trace_limit", yaml written.requestTraceLimit)]) = .ok written := by
  iterate 5 refine read_bind rfl ?_
  rfl

theorem loadRawCapture_eq (rawCapture written : GuiRawCaptureConfig) :
    loadRawCapture rawCapture (.map [
      ("live_limit_bytes", yaml written.liveLimitBytes),
      ("recording_queue_limit_bytes", yaml written.recordingQueueLimitBytes)]) = .ok written := by
  iterate 2 refine read_bind rfl ?_
  rfl

theorem loadWindow_eq (window written : GuiWindowConfig) :
    loadWindow window (.map [
      ("title", yaml written.title),
      ("width", yaml written.width),
      ("height", yaml written.height),
      ("maximized", yaml written.maximized)]) = .ok written := by
  iterate 4 refine read_bind rfl ?_
  rfl

theorem loadInteractionFeedback_eq (feedback written : GuiInteractionFeedbackConfig) :
    loadInteractionFeedback feedback (.map [
      ("enabled", yaml written.enabled),
      ("status_duration_ms", yaml written.statusDurationMs)]) = .ok written := by
  iterate 2 refine read_bind rfl ?_
  rfl

/-- The names are in lower case already. -/
theorem normalizeRendererBackendText_name (backend : GuiRendererBackend) :
    normalizeRendererBackendText (enumToText backend) = enumToText backend := by
  refine String.toList_inj.mp ?_
  rw [normalizeRendererBackendText, String.toList_map]
  cases backend <;> decide

theorem rendererBackend_text (backend : GuiRendererBackend) :
    parseGuiRendererBackend (enumToText backend) = backend := by
  rw [parseGuiRendererBackend, normalizeRendererBackendText_name, lookupEnum_enumToText]

theorem importProtocolSource_text (source : ImportProtocolSource) :
    (if (if source = .currentProtocol then "current_protocol" else "prefer_package") =
        "current_protocol" then ImportProtocolSource.currentProtocol else .preferPackage) =
      source := by
  cases source <;> rfl

/-- A positive `int` is written as the size it is. -/
theorem yaml_size_eq_int {value : UInt64} (h : value ≤ 2147483647) :
    yaml value = yaml (Int32.ofInt value.toNat) := by
  have hvalue : value.toNat ≤ 2147483647 := UInt64.le_iff_toNat_le.mp h
  have hint : (Int32.ofInt value.toNat).toInt = value.toNat :=
    Int32.toInt_ofInt_of_le (by omega) (by omega)
  exact congrArg (fun number => YamlNode.scalar (.integer number)) hint.symm

theorem loadElfSymbolCombo_eq {written : GuiElfSymbolComboConfig}
    (hlimit : 0 < written.limit ∧ written.limit ≤ 2147483647) (hdebounce : 0 < written.debounceMs)
    (combo : GuiElfSymbolComboConfig) :
    loadElfSymbolCombo combo (.map [
      ("limit", yaml written.limit),
      ("debounce_ms", yaml written.debounceMs),
      ("auto_refresh_selected_address", yaml written.autoRefreshSelectedAddress),
      ("auto_refresh_emit_on_control", yaml written.autoRefreshEmitOnControl)]) = .ok written := by
  have hbelow : written.limit.toNat ≤ 2147483647 := UInt64.le_iff_toNat_le.mp hlimit.2
  have habove : 0 < written.limit.toNat := UInt64.lt_iff_toNat_lt.mp hlimit.1
  have hint : (Int32.ofInt written.limit.toNat).toInt = written.limit.toNat :=
    Int32.toInt_ofInt_of_le (by omega) (by omega)
  have hpositive : 0 < Int32.ofInt written.limit.toNat := by
    rw [Int32.lt_iff_toInt_lt, hint]
    show (0 : ℤ) < _
    omega
  rw [yaml_size_eq_int hlimit.2]
  iterate 4 refine read_bind rfl ?_
  rw [if_pos hpositive, if_pos hdebounce, hint, Int.toNat_natCast, UInt64.ofNat_toNat]
  rfl

theorem loadLastDataExport_eq {written : DataExportConfig}
    (h : written.valid = true → written.inRange = true) :
    loadLastDataExport (.map [
      ("valid", yaml written.valid),
      ("content", yaml written.content),
      ("format", yaml written.format),
      ("wave_range", yaml written.waveRange),
      ("record_range", yaml written.recordRange),
      ("csv_shape", yaml written.csvShape),
      ("directory", yaml written.directory)]) = .ok written := by
  have hvalid : (written.valid && written.inRange) = written.valid := by
    cases hwritten : written.valid with
    | false => rfl
    | true => rw [h hwritten, Bool.and_self]
  iterate 7 refine read_bind rfl ?_
  show Except.ok { written with valid := written.valid && written.inRange } = _
  rw [hvalid]

/-! ### Remembered directories -/

theorem loadDirectories_eq (entries : List (String × String)) :
    ∀ directories : Std.ExtTreeMap String String,
      loadDirectories directories (entries.map fun entry => (entry.1, yaml entry.2)) =
        .ok (directories.insertMany entries) := by
  induction entries with
  | nil =>
    intro directories
    rw [Std.ExtTreeMap.insertMany_nil]
    rfl
  | cons entry entries ih =>
    intro directories
    rw [Std.ExtTreeMap.insertMany_cons, ← ih]
    exact bind_eq (as_yaml entry.2) rfl

/-- A map is what its entries insert. -/
theorem insertMany_toList (directories : Std.ExtTreeMap String String) :
    (∅ : Std.ExtTreeMap String String).insertMany directories.toList = directories := by
  rw [← Std.ExtTreeMap.ofList_eq_insertMany_empty]
  refine Std.ExtTreeMap.ext_getElem? fun key => ?_
  cases hvalue : directories[key]? with
  | none =>
    refine Std.ExtTreeMap.getElem?_ofList_of_contains_eq_false ?_
    rw [Std.ExtTreeMap.map_fst_toList_eq_keys, Std.ExtTreeMap.contains_keys,
      Std.ExtTreeMap.contains_eq_isSome_getElem?, hvalue]
    rfl
  | some value =>
    have hmem : (key, value) ∈ directories.toList :=
      Std.ExtTreeMap.mem_toList_iff_getElem?_eq_some.mpr hvalue
    exact Std.ExtTreeMap.getElem?_ofList_of_mem Std.ReflCmp.compare_self
      Std.ExtTreeMap.distinct_keys_toList hmem

theorem loadFileDialogs_eq {fileDialogs written : GuiFileDialogConfig}
    (hdirectories : fileDialogs.directories = ∅) (lastExport : Option YamlNode) {exported : String}
    (hexported : readScalar lastExport "directory" "" = .ok exported) :
    loadFileDialogs fileDialogs (some (.map [
      ("last_import_directory", yaml written.lastImportDirectory),
      ("last_export_directory", yaml written.lastExportDirectory),
      ("directories",
        .map (written.directories.toList.map fun entry => (entry.1, yaml entry.2)))]))
      lastExport = .ok written := by
  refine read_bind rfl ?_
  refine bind_eq hexported ?_
  refine read_bind rfl ?_
  have hloaded : loadDialogDirectories fileDialogs.directories
      (some (.map (written.directories.toList.map fun entry => (entry.1, yaml entry.2)))) =
      .ok written.directories := by
    rw [hdirectories]
    exact (loadDirectories_eq _ _).trans (congrArg Except.ok (insertMany_toList _))
  refine bind_eq rfl ?_
  exact bind_eq hloaded rfl

/-! ### The section -/

theorem loadTransferLog_eq (gui : GuiConfig) (replay : Bool)
    (historyOnParsedSwitch : TransferLogHistoryOnParsedSwitch)
    (historyScope : TransferLogHistoryScope) :
    loadTransferLog gui (.map [
      ("replay_raw_history_on_schema_switch", yaml replay),
      ("history_on_parsed_switch", yaml (enumToText historyOnParsedSwitch)),
      ("history_scope", yaml (enumToText historyScope))]) =
      .ok { gui with
        replayRawHistoryOnSchemaSwitch := replay
        historyOnParsedSwitch := historyOnParsedSwitch
        historyScope := historyScope } := by
  refine subscript_bind rfl ?_
  refine subscript_bind rfl ?_
  refine read_bind rfl ?_
  refine readEnum_bind rfl ?_
  refine readEnum_bind rfl ?_
  rfl

theorem loadGuiWave_eq {config scaled : AppConfig} {gui : GuiConfig}
    (hwave : config.gui.wave.InRange) (hselection : gui.wave.overviewSelection = {})
    (hbacklog : gui.realtimeBacklog = scaled.gui.realtimeBacklog) :
    loadGuiWave (some (writeGuiConfig config scaled)) gui {} (writeGuiWaveConfig config.gui.wave) =
      .ok ({ gui with
          wave := config.gui.wave
          logHistory := config.gui.logHistory
          rawCapture := config.gui.rawCapture
          realtimeBacklog := config.gui.realtimeBacklog
          showAppHeader := config.gui.showAppHeader
          luaDockLayoutDebug := config.gui.luaDockLayoutDebug
          luaDockRenderCopyMode := config.gui.luaDockRenderCopyMode
          sendHistoryLimit := config.gui.sendHistoryLimit },
        config.gui.realtimeBacklog.writtenFlags scaled.gui.realtimeBacklog
          config.performance.explicitOverrides {}) := by
  refine bind_eq (loadGuiWaveConfig_eq hwave hselection) ?_
  refine section_bind rfl (loadLogHistory_eq _ _) ?_
  refine section_bind rfl (loadRawCapture_eq _ _) ?_
  refine section_bind rfl (loadRealtimeBacklog_eq hbacklog config.gui.realtimeBacklog
    config.performance.explicitOverrides) ?_
  iterate 4 refine read_bind rfl ?_
  rfl

/-- **The whole section comes back**, over a configuration whose budgets are the scaled
defaults and which holds nothing of the maps and options yet. -/
theorem loadGuiConfig_eq {entries : List (String × YamlNode)} {config scaled base : AppConfig}
    (hentry : entries.lookup "gui" = some (writeGuiConfig config scaled))
    (h : config.gui.InRange) (hbacklog : base.gui.realtimeBacklog = scaled.gui.realtimeBacklog)
    (hdirectories : base.gui.fileDialogs.directories = ∅)
    (hselection : base.gui.wave.overviewSelection = {})
    (hflags : base.performance.explicitOverrides = {}) :
    loadGuiConfig (.map entries) base = .ok { base with
      gui := config.gui
      performance := {
        base.performance with
        explicitOverrides := config.gui.realtimeBacklog.writtenFlags scaled.gui.realtimeBacklog
          config.performance.explicitOverrides {} } } := by
  unfold loadGuiConfig
  rw [hflags]
  refine subscript_bind hentry ?_
  refine read_bind rfl ?_
  refine bind_eq rfl ?_
  refine read_bind rfl ?_
  refine read_bind rfl ?_
  refine section_bind rfl (loadWindow_eq _ _) ?_
  refine section_bind rfl (readEnum_eq rfl) ?_
  refine section_bind rfl (loadInteractionFeedback_eq _ _) ?_
  refine bind_eq rfl ?_
  refine bind_eq rfl ?_
  refine bind_eq (loadFileDialogs_eq hdirectories _ (readScalar_eq rfl)) ?_
  refine bind_eq (loadLastDataExport_eq h.lastDataExport) ?_
  refine section_bind rfl (loadGuiWave_eq h.wave hselection hbacklog) ?_
  refine section_bind rfl (loadElfSymbolCombo_eq h.comboLimit h.comboDebounce _) ?_
  refine section_bind rfl (loadTransferLog_eq _ _ _ _) ?_
  rw [rendererBackend_text, importProtocolSource_text]
  rfl

end ProtoScope.Config
