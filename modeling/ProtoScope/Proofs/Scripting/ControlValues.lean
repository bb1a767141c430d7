/-
The values of the controls satisfy their constraints, as long as no record puts a default back that
no longer does.

Every writer checks the value or the constraint it changes, against the other as it is then.  The
exception is a record without a value for a bound control: the control gets its declared default,
which was checked against the constraints of the declaration, and an update may have changed them
since.
-/
import ProtoScope.Proofs.Scripting.ControlUpdates
import ProtoScope.Scripting.ControlHost

namespace ProtoScope.Scripting

open ProtoScope.Data (bind_eq_ok)

/-- Each control has its own id, and a value that its descriptor allows. -/
structure ControlsSound (controls : List ControlDescriptor)
    (values : String → Option ControlValue) : Prop where
  ids : (controls.map (·.id)).Nodup
  valid : ∀ control ∈ controls, ∃ value, values control.id = some value ∧
    validateControlValue control value = true

/-! ### Values that are valid by their kind -/

theorem validate_valueTable {control : ControlDescriptor} (h : control.type = .valueTable)
    (rows : List ValueTableCellValue) :
    validateControlValue control (.valueTable rows) = true := by
  have hindex : (defaultValueFor control).index = 5 := by
    unfold defaultValueFor
    rw [h]
    rfl
  unfold validateControlValue
  rw [hindex]
  rfl

theorem validate_stopped (control : ControlDescriptor) (value : ControlValue) :
    validateControlValue control value.stopped = validateControlValue control value := by
  cases value <;> rfl

section Writers

variable {controls : List ControlDescriptor} {values : String → Option ControlValue}
  {control : ControlDescriptor} {value : ControlValue} {id : String} {host : ControlHost}
  {readers : ControlReaders}

theorem find_mem (h : findControlDescriptor controls id = some control) : control ∈ controls :=
  List.mem_of_find?_eq_some h

/-- A valid value for one control leaves the others theirs. -/
theorem ControlsSound.update (h : ControlsSound controls values) (hmem : control ∈ controls)
    (hvalid : validateControlValue control value = true) :
    ControlsSound controls (Function.update values control.id (some value)) where
  ids := h.ids
  valid := by
    intro other hother
    by_cases hid : other.id = control.id
    · have hsame := List.inj_on_of_nodup_map h.ids hother hmem hid
      rw [hsame, Function.update_self]
      exact ⟨value, rfl, hvalid⟩
    · rw [Function.update_of_ne hid]
      exact h.valid other hother

theorem ControlsSound.storeValue (host : ControlHost)
    (h : ControlsSound host.controls host.controlValues)
    (hmem : control ∈ host.controls) (rows : List ValueTableCellValue)
    (hvalid : validateControlValue control value = true) :
    ControlsSound (host.storeValue control rows value).controls
      (host.storeValue control rows value).controlValues := by
  unfold ControlHost.storeValue
  split
  · rename_i htype
    split
    · exact h.update hmem (validate_valueTable htype _)
    · exact h.update hmem (validate_valueTable htype _)
  · exact h.update hmem hvalid

theorem ControlsSound.onControl (h : ControlsSound host.controls host.controlValues)
    (runtimeGeneration : ℕ) (faulted : Bool) (generation : Option ℕ) (id : String)
    (value : ControlValue) :
    ControlsSound (onControl host runtimeGeneration faulted generation id value).controls
      (onControl host runtimeGeneration faulted generation id value).controlValues := by
  unfold Scripting.onControl
  split
  · exact h
  split
  · exact h
  · rename_i descriptor hfound
    split
    · exact h
    · rename_i hchecks
      simp only [Bool.or_eq_true, Bool.not_eq_true', not_or, Bool.not_eq_false] at hchecks
      exact h.storeValue _ (find_mem hfound) _ hchecks.2

theorem validate_of_takesValue (h : takesValue control value = true) :
    validateControlValue control value = true := by
  unfold takesValue at h
  simp only [Bool.not_eq_true', Bool.or_eq_false_iff, Bool.not_eq_false'] at h
  exact h.2

theorem ControlsSound.setControlValue (h : ControlsSound host.controls host.controlValues)
    (id : String) (value : ControlValue) :
    ControlsSound (setControlValue host id value).controls
      (setControlValue host id value).controlValues := by
  unfold Scripting.setControlValue
  split
  · exact h
  · rename_i descriptor hfound
    split
    · rename_i htakes
      exact h.storeValue _ (find_mem hfound) _ (validate_of_takesValue htakes)
    · exact h

theorem ControlsSound.setControl (h : ControlsSound host.controls host.controlValues)
    (nowMs : ℕ) (id : String) (object : LuaValue) :
    ControlsSound (setControl readers host nowMs id object).controls
      (setControl readers host nowMs id object).controlValues := by
  unfold Scripting.setControl
  split
  · exact h
  split
  · exact h
  · unfold updateControlValue
    split
    · exact h
    · rename_i descriptor hfound
      split
      · rename_i htakes
        exact ControlsSound.storeValue
          { host with
            controlUpdatedAtMs :=
              if host.scriptLoaded then Function.update host.controlUpdatedAtMs id (some nowMs)
              else host.controlUpdatedAtMs } h (find_mem hfound) _ (validate_of_takesValue htakes)
      · exact h

theorem ControlsSound.streamTarget (h : ControlsSound host.controls host.controlValues)
    (id : String) (patch : List ValueTableCellValue) :
    ControlsSound (applyStreamValueTarget host id patch).controls
      (applyStreamValueTarget host id patch).controlValues := by
  unfold applyStreamValueTarget
  split
  · exact h
  · rename_i descriptor hfound
    split
    · exact h
    · rename_i htype
      rw [← findControlDescriptor_id hfound]
      exact h.update (find_mem hfound) (validate_valueTable (not_not.mp htype) _)

/-! ### Updates of properties -/

theorem map_id_replaceControl {replacement : ControlDescriptor} (hid : replacement.id = id) :
    (replaceControl id replacement controls).map (·.id) = controls.map (·.id) := by
  induction controls with
  | nil => rfl
  | cons first controls ih =>
    unfold replaceControl
    split
    · rename_i hfirst
      rw [List.map_cons, List.map_cons, hid, hfirst]
    · rw [List.map_cons, List.map_cons, ih]

theorem mem_replaceControl {replacement other : ControlDescriptor}
    (hids : (controls.map (·.id)).Nodup) (h : other ∈ replaceControl id replacement controls) :
    other = replacement ∨ other ∈ controls ∧ other.id ≠ id := by
  induction controls with
  | nil => exact (List.not_mem_nil h).elim
  | cons first controls ih =>
    obtain ⟨hnot, hrest⟩ := List.nodup_cons.mp
      (show (first.id :: controls.map (·.id)).Nodup from hids)
    unfold replaceControl at h
    split at h
    · rename_i hfirst
      rcases List.mem_cons.mp h with rfl | hmem
      · exact Or.inl rfl
      · refine Or.inr ⟨List.mem_cons_of_mem _ hmem, fun heq => hnot ?_⟩
        rw [hfirst, ← heq]
        exact List.mem_map_of_mem hmem
    · rename_i hfirst
      rcases List.mem_cons.mp h with rfl | hmem
      · exact Or.inr ⟨List.mem_cons_self, hfirst⟩
      · rcases ih hrest hmem with rfl | ⟨hold, hne⟩
        · exact Or.inl rfl
        · exact Or.inr ⟨List.mem_cons_of_mem _ hold, hne⟩

/-- A patch that goes through leaves its control a value that is valid for it now. -/
theorem ControlsSound.patch {copies copies' : ControlCopies} {nowMs : ℕ} {patch : LuaTable}
    (h : ControlsSound copies.controls copies.values)
    (hpatch : copies.patch readers id nowMs patch = .ok copies') :
    ControlsSound copies'.controls copies'.values := by
  have hsome : (copies.patch readers id nowMs patch).toOption = some copies' := by
    rw [hpatch]
    rfl
  obtain ⟨control, patched, hfound, hpatched, hid, rfl⟩ := patch_eq_some.mp hsome
  obtain ⟨hdescriptor, -, value, hresult, hvalid⟩ := patchControl_ok hpatched
  constructor
  · show ((replaceControl id patched.1 copies.controls).map (·.id)).Nodup
    rw [map_id_replaceControl hid]
    exact h.ids
  · intro other hother
    rcases mem_replaceControl h.ids hother with rfl | ⟨hold, hne⟩
    · refine ⟨value, ?_, hdescriptor ▸ hvalid⟩
      rw [hid, put_values_self]
      exact hresult
    · rw [put_values_ne hne]
      exact h.valid other hold

theorem ControlsSound.patchControls {now : String → ℕ} {patches : LuaTable} {count : ℕ}
    {copies copies' : ControlCopies} (h : ControlsSound copies.controls copies.values)
    (hloop : patchControls readers now patches count copies = .ok copies') :
    ControlsSound copies'.controls copies'.values := by
  induction patches generalizing count copies with
  | nil =>
    cases hloop
    exact h
  | cons entry patches ih =>
    obtain ⟨key, item⟩ := entry
    unfold Scripting.patchControls at hloop
    split at hloop
    · split at hloop
      · cases hloop
      · obtain ⟨middle, hpatch, hloop⟩ := bind_eq_ok.mp hloop
        exact ih (h.patch hpatch) hloop
    · cases hloop

theorem ControlsSound.updateProperties (h : ControlsSound host.controls host.controlValues)
    (now : String → ℕ) (patches : LuaTable) :
    ControlsSound (host.update readers now patches).1.controls
      (host.update readers now patches).1.controlValues := by
  unfold ControlHost.update
  split
  · rename_i host' hresult
    obtain ⟨copies, hloop, rfl⟩ := update_eq_ok hresult
    exact ControlsSound.patchControls h hloop
  · exact h

/-! ### Records -/

theorem validate_of_boundValue {field : BoundField}
    (h : boundValue readers control field = some value) :
    validateControlValue control value = true := by
  unfold boundValue at h
  split at h
  · cases h
  · split at h
    · cases h
    · split at h
      · rename_i hvalid
        cases h
        exact hvalid
      · cases h

/-- A field that gives no value finds a default that the control may have. -/
def FieldFits (readers : ControlReaders) (record : PublishedRecord)
    (control : ControlDescriptor) : Prop :=
  ∀ index field, boundIndex record control = some index → record.values[index]? = some field →
    boundValue readers control field = none →
      validateControlValue control (defaultValueFor control) = true

theorem ControlsSound.showField {field : BoundField} (host : ControlHost)
    (h : ControlsSound host.controls host.controlValues) (hmem : control ∈ host.controls)
    (hfits : boundValue readers control field = none →
      validateControlValue control (defaultValueFor control) = true) :
    ControlsSound (showField readers host control field).controls
      (showField readers host control field).controlValues := by
  unfold Scripting.showField
  dsimp only
  split
  · rename_i hnone
    exact h.update hmem (hfits hnone)
  · rename_i value hvalue
    have hset := h.update hmem (validate_of_boundValue hvalue)
    unfold ControlHost.setValue
    rw [Function.update_idem]
    exact hset

theorem ControlsSound.publishTo {record : PublishedRecord} {rest : List ControlDescriptor}
    (h : ControlsSound host.controls host.controlValues)
    (hrest : ∀ control ∈ rest, control ∈ host.controls)
    (hfits : ∀ control ∈ rest, FieldFits readers record control) :
    ControlsSound (publishTo readers record rest host).controls
      (publishTo readers record rest host).controlValues := by
  induction rest generalizing host with
  | nil => exact h
  | cons control rest ih =>
    have hrest' : ∀ control ∈ rest, control ∈ host.controls := fun other hother =>
      hrest other (List.mem_cons_of_mem _ hother)
    have hfits' : ∀ control ∈ rest, FieldFits readers record control := fun other hother =>
      hfits other (List.mem_cons_of_mem _ hother)
    unfold Scripting.publishTo
    split
    · exact ih h hrest' hfits'
    · rename_i index hindex
      dsimp only
      split
      · exact h
      · rename_i field hfield
        have hshown := ControlsSound.showField
          { host with
            controlUpdatedAtMs := Function.update host.controlUpdatedAtMs control.id
              (some (record.receivedAtUs / 1000)) } h (hrest control List.mem_cons_self)
          (hfits control List.mem_cons_self index field hindex hfield)
        refine ih hshown (fun other hother => ?_) hfits'
        have hcontrols : (Scripting.showField readers
            { host with
              controlUpdatedAtMs := Function.update host.controlUpdatedAtMs control.id
                (some (record.receivedAtUs / 1000)) } control field).controls =
            host.controls := by
          unfold Scripting.showField
          dsimp only
          split <;> rfl
        rw [hcontrols]
        exact hrest' other hother

end Writers

/-! ### Loading -/

theorem mapM_ok_mem {α β : Type} {f : α → Except String β} {xs : List α} {ys : List β}
    (h : xs.mapM f = .ok ys) : ∀ y ∈ ys, ∃ x ∈ xs, f x = .ok y := by
  induction xs generalizing ys with
  | nil =>
    cases h
    exact fun y hy => (List.not_mem_nil hy).elim
  | cons x xs ih =>
    rw [List.mapM_cons] at h
    obtain ⟨y, hy, h⟩ := bind_eq_ok.mp h
    obtain ⟨rest, hrest, h⟩ := bind_eq_ok.mp h
    cases h
    intro z hz
    rcases List.mem_cons.mp hz with rfl | hz
    · exact ⟨x, List.mem_cons_self, hy⟩
    · obtain ⟨w, hw, hfw⟩ := ih hrest z hz
      exact ⟨w, List.mem_cons_of_mem _ hw, hfw⟩

/-- A control that is declared may have its default. -/
theorem DeclaredControl.parse_ok {declared : DeclaredControl} {control : ControlDescriptor}
    (h : declared.parse = .ok control) :
    validateControlValue control (defaultValueFor control) = true := by
  cases declared with
  | control descriptor =>
    unfold DeclaredControl.parse parseControlDescriptor at h
    dsimp only at h
    split at h
    · rename_i hvalid
      cases h
      exact hvalid
    · cases h
  | tabs id pages defaultPage =>
    unfold DeclaredControl.parse parseTabs at h
    dsimp only at h
    split at h
    · cases h
    split at h
    · cases h
    split at h
    · cases h
    rename_i hpages
    split at h
    · cases h
    split at h
    · cases h
    rename_i hdefault
    cases h
    rw [Bool.not_eq_true, Bool.not_eq_false'] at hdefault hpages
    have htext := List.all_eq_true.mp hpages defaultPage (List.contains_iff_mem.mp hdefault)
    unfold validPageText at htext
    rw [Bool.and_eq_true, Bool.not_eq_true'] at htext
    unfold validateControlValue
    rw [if_neg (by simp)]
    dsimp only [defaultValueFor, controlValueKind]
    rw [htext.2, Bool.and_false, if_neg Bool.false_ne_true, if_pos rfl]
    exact hdefault

section Loading

variable {host : ControlHost} {controls : List ControlDescriptor}

/-- A map filled control by control has what was put in under each id. -/
theorem foldl_update_mem {α : Type} {g : ControlDescriptor → α} {values : String → Option α}
    (hids : (controls.map (·.id)).Nodup) {control : ControlDescriptor} (hmem : control ∈ controls) :
    controls.foldl (fun (values : String → Option α) control =>
      Function.update values control.id (some (g control))) values control.id =
        some (g control) := by
  have hkept : ∀ (rest : List ControlDescriptor) (values : String → Option α),
      control.id ∉ rest.map (·.id) →
        rest.foldl (fun (values : String → Option α) control =>
          Function.update values control.id (some (g control))) values control.id =
            values control.id := by
    intro rest
    induction rest with
    | nil => exact fun _ _ => rfl
    | cons other rest ih =>
      intro values hnot
      rw [List.foldl_cons, ih _ (List.not_mem_of_not_mem_cons hnot)]
      exact Function.update_of_ne (List.ne_of_not_mem_cons hnot) _ _
  induction controls generalizing values with
  | nil => exact (List.not_mem_nil hmem).elim
  | cons first controls ih =>
    obtain ⟨hnot, hrest⟩ := List.nodup_cons.mp
      (show (first.id :: controls.map (·.id)).Nodup from hids)
    rw [List.foldl_cons]
    rcases List.mem_cons.mp hmem with rfl | hmem
    · rw [hkept controls _ hnot]
      exact Function.update_self _ _ _
    · exact ih hrest hmem

theorem validate_of_canReuse {previous next : ControlDescriptor} {value : ControlValue}
    (h : canReuseControlValue previous next value = true) :
    validateControlValue next value = true := by
  unfold canReuseControlValue at h
  split at h
  · cases h
  · rename_i hchecks
    simp only [Bool.or_eq_true, Bool.not_eq_true', not_or, Bool.not_eq_false] at hchecks
    exact hchecks.2

theorem validate_reusedValue {control : ControlDescriptor}
    (hdefault : validateControlValue control (defaultValueFor control) = true) :
    validateControlValue control (host.reusedValue control) = true := by
  unfold ControlHost.reusedValue
  split
  · split
    · rename_i hreuse
      rw [validate_stopped]
      exact validate_of_canReuse hreuse
    · rw [validate_stopped]
      exact hdefault
  · rw [validate_stopped]
    exact hdefault

/-- A script that is loaded gives each of its controls a value it may have. -/
theorem ControlsSound.commit {declared : List (List DeclaredControl)}
    {docks : List (List ControlDescriptor)} (hparsed : parseDocks declared = .ok docks)
    (hids : (docks.flatten.map (·.id)).Nodup) :
    ControlsSound (commitLoadedScript host docks).controls
      (commitLoadedScript host docks).controlValues where
  ids := hids
  valid := by
    intro control hmem
    obtain ⟨dock, hdock, hcontrol⟩ := List.mem_flatten.mp hmem
    obtain ⟨declaredDock, -, hparsedDock⟩ := mapM_ok_mem hparsed dock hdock
    obtain ⟨declaredControl, -, hparsedControl⟩ := mapM_ok_mem hparsedDock control hcontrol
    exact ⟨host.reusedValue control, foldl_update_mem hids hmem,
      validate_reusedValue (DeclaredControl.parse_ok hparsedControl)⟩

end Loading

/-! ### Runs -/

/-- What a step has to meet: a script declares each id once, and a record that gives a control no
value finds a default that the control may have. -/
def StepFits (readers : ControlReaders) (system : ScriptControls) : ControlStep → Prop
  | .load docks => ∀ parsed, parseDocks docks = .ok parsed → (parsed.flatten.map (·.id)).Nodup
  | .publish record => ∀ control ∈ system.host.controls, FieldFits readers record control
  | _ => True

def RunFits (readers : ControlReaders) : ScriptControls → List ControlStep → Prop
  | _, [] => True
  | system, step :: steps =>
    StepFits readers system step ∧ RunFits readers (system.step readers step) steps

/-- A patch of texts and states only. -/
structure NeutralPatch (patch : LuaTable) : Prop where
  value : patch.get "value" = .nil
  minimum : patch.get "min" = .nil
  maximum : patch.get "max" = .nil
  maxLength : patch.get "max_length" = .nil
  options : patch.get "options" = .nil

section Runs

variable {readers : ControlReaders} {system : ScriptControls}

/-- One step keeps the values valid. -/
theorem ControlsSound.step {step : ControlStep}
    (h : ControlsSound system.host.controls system.host.controlValues)
    (hfits : StepFits readers system step) :
    ControlsSound (system.step readers step).host.controls
      (system.step readers step).host.controlValues := by
  cases step with
  | load docks =>
    unfold ScriptControls.step
    dsimp only
    split
    · rename_i parsed hparsed
      unfold loadScript
      rw [hparsed]
      exact ControlsSound.commit hparsed (hfits parsed hparsed)
    · exact h
  | reset => exact ⟨List.nodup_nil, fun _ hmem => (List.not_mem_nil hmem).elim⟩
  | onControl faulted generation id value => exact h.onControl _ faulted generation id value
  | setControlValue id value => exact h.setControlValue id value
  | setControl nowMs id object => exact h.setControl nowMs id object
  | updateProperties now patches => exact h.updateProperties now patches
  | streamTarget id patch => exact h.streamTarget id patch
  | publish record => exact h.publishTo (fun _ hmem => hmem) hfits

/-- Every run keeps them valid. -/
theorem ControlsSound.run {steps : List ControlStep}
    (h : ControlsSound system.host.controls system.host.controlValues)
    (hfits : RunFits readers system steps) :
    ControlsSound (steps.foldl (ScriptControls.step readers) system).host.controls
      (steps.foldl (ScriptControls.step readers) system).host.controlValues := by
  induction steps generalizing system with
  | nil => exact h
  | cons step steps ih => exact ih (h.step hfits.1) hfits.2

/-- A patch of texts and states leaves what a control may have as it was. -/
theorem validate_patched {control : ControlDescriptor} {patch : LuaTable}
    (hneutral : NeutralPatch patch) (value : ControlValue) :
    validateControlValue (control.patched patch) value = validateControlValue control value := by
  obtain ⟨-, hminimum, hmaximum, hmaxLength, hoptions⟩ := hneutral
  unfold ControlDescriptor.patched
  rw [hminimum, hmaximum, hmaxLength, hoptions]
  rfl

/-- It is refused for its texts and states or not at all. -/
theorem patchControl_neutral {control : ControlDescriptor} {patch : LuaTable}
    {current : Option ControlValue} {value : ControlValue} (hneutral : NeutralPatch patch)
    (hcurrent : current = some value) (hvalid : validateControlValue control value = true) :
    patchControl readers control patch current =
      (applyControlProperties control patch true).map fun control => (control, none) := by
  unfold patchControl
  cases happlied : applyControlProperties control patch true with
  | error message => rfl
  | ok control' =>
    have hvalue : namedValue readers control' patch current = .ok none := by
      unfold namedValue
      rw [hneutral.value]
    have hcheck : checkValue control' ((none : Option ControlValue).or current) = .ok () := by
      rw [hcurrent, applyControlProperties_ok happlied]
      unfold checkValue
      dsimp only [Option.none_or]
      rw [validate_patched hneutral, hvalid]
      rfl
    show (do
      let value ← namedValue readers control' patch current
      checkValue control' (value.or current)
      return (control', value)) = _
    rw [hvalue]
    show (do
      checkValue control' ((none : Option ControlValue).or current)
      return (control', none)) = _
    rw [hcheck]
    rfl

theorem find_of_mem {controls : List ControlDescriptor} (hids : (controls.map (·.id)).Nodup)
    {control : ControlDescriptor} (hmem : control ∈ controls) :
    findControlDescriptor controls control.id = some control := by
  cases hfound : findControlDescriptor controls control.id with
  | none =>
    have hnone := List.find?_eq_none.mp hfound control hmem
    exact (hnone (decide_eq_true rfl)).elim
  | some found =>
    rw [List.inj_on_of_nodup_map hids (find_mem hfound) hmem (findControlDescriptor_id hfound)]

/-- **As long as scripts declare each id once and no record puts back a default that a control may
no longer have, every control's value is one that it may have, in every state of a run; a patch of
texts and states is never refused for it.** -/
theorem control_values_valid (readers : ControlReaders) (steps : List ControlStep)
    (hfits : RunFits readers {} steps) :
    ∀ control ∈ (ScriptControls.run readers steps).host.controls,
      findControlDescriptor (ScriptControls.run readers steps).host.controls control.id =
          some control ∧
        (∃ value, (ScriptControls.run readers steps).host.controlValues control.id = some value ∧
          validateControlValue control value = true) ∧
        ∀ patch, NeutralPatch patch →
          patchControl readers control patch
              ((ScriptControls.run readers steps).host.controlValues control.id) =
            (applyControlProperties control patch true).map fun control => (control, none) := by
  intro control hmem
  have hempty : ControlsSound ({} : ScriptControls).host.controls
      ({} : ScriptControls).host.controlValues :=
    ⟨List.nodup_nil, fun _ hmem => (List.not_mem_nil hmem).elim⟩
  have hsound : ControlsSound (ScriptControls.run readers steps).host.controls
      (ScriptControls.run readers steps).host.controlValues := hempty.run hfits
  obtain ⟨value, hvalue, hvalid⟩ := hsound.valid control hmem
  exact ⟨find_of_mem hsound.ids hmem, ⟨value, hvalue, hvalid⟩,
    fun patch hneutral => patchControl_neutral hneutral hvalue hvalid⟩

end Runs

/-- A label that shows the first field of a dataset. -/
def boundLabel : DeclaredControl :=
  .control { type := .label, id := "state", label := "waiting", textDefault := "waiting",
             maxLength := 4096, binding := some { dataset := "d" } }

/-- A record with one field. -/
def fieldRecord (field : BoundField) : PublishedRecord where
  dataset := "d"
  device := ""
  receivedAtUs := 0
  values := [field]

/-- The label shows a text and, after a record without one, its default. -/
theorem control_values_valid_label :
    ∃ value, (ScriptControls.run plainReaders
        [.load [[boundLabel]], .publish (fieldRecord (.text "on")),
          .publish (fieldRecord .null)]).host.controlValues "state" = some value ∧
      validateControlValue
        { type := .label, id := "state", label := "waiting", textDefault := "waiting",
          maxLength := 4096, binding := some { dataset := "d" } } value = true := by
  have hfits : RunFits plainReaders {} [.load [[boundLabel]],
      .publish (fieldRecord (.text "on")), .publish (fieldRecord .null)] := by
    refine ⟨fun parsed hparsed => ?_, fun control hmem => ?_, fun control hmem => ?_, trivial⟩
    · cases hparsed
      decide
    · intro index field _ _ _
      rw [List.mem_singleton.mp hmem]
      decide
    · intro index field _ _ _
      rw [List.mem_singleton.mp hmem]
      decide
  exact (control_values_valid plainReaders _ hfits _ List.mem_cons_self).2.1

/-- With the length limited to two bytes the default no longer fits, and after a record without a
text even a new tooltip is refused. -/
theorem default_violates_limit :
    let host := (ScriptControls.run plainReaders
      [.load [[boundLabel]], .publish (fieldRecord (.text "on")),
        .updateProperties (fun _ => 0)
          [(.string "state", .table [(.string "max_length", .number ⟨true, 2, true, 2, 2, 2⟩)])],
        .publish (fieldRecord .null)]).host
    (host.controls.all fun control =>
        (host.controlValues control.id).any (validateControlValue control)) = false ∧
      (host.update plainReaders (fun _ => 0)
        [(.string "state", .table [(.string "tooltip", .string "t")])]).2 = false := by
  decide

end ProtoScope.Scripting
