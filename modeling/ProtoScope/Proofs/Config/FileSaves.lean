/-
A save replaces only what its object has written or seen.

A snapshot reads the content of the file last, so a check that finds no change leaves the
file as the remembered snapshot shows it, and so it stays up to the rename.  What is
remembered was seen at the construction or at an acceptance, or it was read back after a
rename; there the file may already hold what another program has just written, and only when
it does not is the remembered content one of the object's own.

A preference save reads its document apart from its snapshot.  When both are the same content
the document that is written keeps every key that is not a preference.
-/
import ProtoScope.Config.SettingsPersistence
import ProtoScope.Data.Model
import ProtoScope.Proofs.Config.ConfigRoundTrip
import ProtoScope.Proofs.Config.DockSettings

namespace ProtoScope.Config

open ProtoScope.Data (bind_eq_ok)
open ConfigWorld SettingsPersistence PreferencesSave

/-! ### Assigning keys -/

namespace YamlNode

theorem lookup_setEntry_self (key : String) (value : YamlNode)
    (entries : List (String × YamlNode)) :
    (setEntry key value entries).lookup key = some value := by
  induction entries with
  | nil => simp [setEntry]
  | cons entry entries ih =>
    unfold setEntry
    by_cases hkey : key = entry.1
    · rw [if_pos hkey]
      simp
    · rw [if_neg hkey, List.lookup_cons, beq_false_of_ne hkey]
      exact ih

theorem lookup_setEntry_ne {key other : String} (h : other ≠ key) (value : YamlNode)
    (entries : List (String × YamlNode)) :
    (setEntry key value entries).lookup other = entries.lookup other := by
  induction entries with
  | nil => simpa [setEntry] using h
  | cons entry entries ih =>
    unfold setEntry
    by_cases hkey : key = entry.1
    · rw [if_pos hkey, List.lookup_cons, List.lookup_cons, ← hkey, beq_false_of_ne h]
    · rw [if_neg hkey, List.lookup_cons, List.lookup_cons, ih]

/-- What an assignment keeps: a node that is there and not at or below the assigned path is
still there, and the same unless it is above that path. -/
theorem assign_keeps {path : List String} {value node node' : YamlNode}
    (h : assign path value node = .ok node') {other : List String} {kept : YamlNode}
    (hother : ¬ path <+: other) (hkept : node.at? other = some kept) :
    ∃ kept', node'.at? other = some kept' ∧ (¬ other <+: path → kept' = kept) := by
  induction path generalizing node node' other with
  | nil => exact absurd (List.nil_prefix) hother
  | cons key path ih =>
    cases other with
    | nil => exact ⟨node', rfl, fun hnot => absurd List.nil_prefix hnot⟩
    | cons first rest =>
      cases node with
      | map entries =>
        obtain ⟨_, hentries, h⟩ := bind_eq_ok.mp h
        cases hentries
        obtain ⟨child, hchild, hnode⟩ := bind_eq_ok.mp h
        cases hnode
        obtain ⟨old, hold, hrest⟩ := Option.bind_eq_some_iff.mp hkept
        by_cases hfirst : first = key
        · subst hfirst
          have hold' : ((entries.lookup first).getD .null) = old := by rw [hold]; rfl
          rw [hold'] at hchild
          obtain ⟨kept', hkept', hsame⟩ := ih hchild
            (fun hprefix => hother (List.cons_prefix_cons.mpr ⟨rfl, hprefix⟩)) hrest
          refine ⟨kept', ?_, fun hnot => hsame fun hprefix => hnot ?_⟩
          · show ((setEntry first child entries).lookup first).bind (at? rest) = some kept'
            rw [lookup_setEntry_self]
            exact hkept'
          · exact List.cons_prefix_cons.mpr ⟨rfl, hprefix⟩
        · refine ⟨kept, ?_, fun _ => rfl⟩
          show ((setEntry key child entries).lookup first).bind (at? rest) = some kept
          rw [lookup_setEntry_ne hfirst]
          exact hkept
      | null => cases hkept
      | scalar value => cases hkept
      | sequence items => cases hkept

end YamlNode

/-- What some assignments keep. -/
def KeepsOtherKeys (assignments : List (List String × YamlNode)) (before after : YamlNode) : Prop :=
  ∀ path kept, (∀ entry ∈ assignments, ¬ entry.1 <+: path) → before.at? path = some kept →
    ∃ kept', after.at? path = some kept' ∧
      ((∀ entry ∈ assignments, ¬ path <+: entry.1) → kept' = kept)

theorem assignAll_keeps {assignments : List (List String × YamlNode)} {root root' : YamlNode}
    (h : assignAll assignments root = .ok root') : KeepsOtherKeys assignments root root' := by
  unfold assignAll at h
  induction assignments generalizing root with
  | nil =>
    cases h
    exact fun path kept _ hkept => ⟨kept, hkept, fun _ => rfl⟩
  | cons entry assignments ih =>
    rw [List.foldlM_cons] at h
    obtain ⟨middle, hmiddle, hrest⟩ := bind_eq_ok.mp h
    intro path kept hother hkept
    obtain ⟨first, hfirst, hsame⟩ :=
      YamlNode.assign_keeps hmiddle (hother entry List.mem_cons_self) hkept
    obtain ⟨last, hlast, hsame'⟩ := ih hrest path first
      (fun other hmem => hother other (List.mem_cons_of_mem _ hmem)) hfirst
    refine ⟨last, hlast, fun hnot => ?_⟩
    rw [hsame' fun other hmem => hnot other (List.mem_cons_of_mem _ hmem)]
    exact hsame (hnot entry List.mem_cons_self)

/-! ### Checks -/

namespace FileSnapshot

/-- The file is as a snapshot shows it. -/
inductive Shows (snapshot : FileSnapshot) : ConfigFile → Prop where
  | absent (herror : snapshot.error = "") (hthere : snapshot.isThere = false) :
      Shows snapshot .absent
  | regular (herror : snapshot.error = "") (hthere : snapshot.isThere = true) (timestampMs : ℕ) :
      Shows snapshot (.present (.regular snapshot.contents) timestampMs)

/-- A snapshot without an error shows the file as it was at its last observation. -/
theorem shows_of_observe {current : FileSnapshot} {file : ConfigFile} {stage : SnapshotStage}
    (hlook : observe file stage = .inr current) (herror : current.error = "") :
    current.Shows file := by
  have hnonempty (prefix_ : String) (hne : prefix_ ≠ "") (what : String) : prefix_ ++ what ≠ "" := by
    intro hempty
    exact hne (String.append_eq_empty_iff.mp hempty).1
  cases stage with
  | existence =>
    cases file with
    | absent =>
      cases hlook
      exact .absent rfl rfl
    | inaccessible error =>
      cases hlook
      exact absurd herror (hnonempty _ (by decide) error)
    | present kind timestampMs => cases hlook
  | kind =>
    dsimp only [observe] at hlook
    split at hlook
    · cases hlook
    · cases hlook
    · cases hlook
      exact absurd herror (by decide)
  | time =>
    cases file with
    | absent =>
      cases hlook
      exact absurd herror (by decide)
    | inaccessible error =>
      cases hlook
      exact absurd herror (hnonempty _ (by decide) error)
    | present kind timestampMs => cases hlook
  | contents timestampMs =>
    dsimp only [observe] at hlook
    split at hlook
    · cases hlook
      exact .regular rfl rfl _
    · cases hlook
      exact absurd herror (by decide : "读取配置快照失败" ≠ "")

/-- **A check that finds no change leaves the file as the snapshot shows it.** -/
theorem shows_of_unchanged {previous current : FileSnapshot} {file : ConfigFile}
    {stage : SnapshotStage} (hlook : observe file stage = .inr current)
    (hsame : previous.hasChanged current = false) : previous.Shows file := by
  simp only [hasChanged, Bool.or_eq_false_iff, decide_eq_false_iff_not, ne_eq, not_not,
    bne_eq_false_iff_eq] at hsame
  obtain ⟨⟨⟨⟨hprevious, hcurrent⟩, hthere⟩, -⟩, hcontents⟩ := hsame
  cases shows_of_observe hlook hcurrent with
  | absent _ habsent => exact .absent hprevious (hthere ▸ habsent)
  | regular _ hpresent timestampMs =>
    rw [hcontents]
    exact .regular hprevious (hthere ▸ hpresent) timestampMs

end FileSnapshot

section Parameters

variable {store : ConfigStore} {longDouble : LongDouble} {yamlText : YamlText}

/-! ### The settings -/

namespace SettingsPersistence

/-- What is remembered was put into place by the object or seen. -/
def Remembers (persistence : SettingsPersistence) : Prop :=
  ∀ contents, persistence.saved.content = some contents →
    contents ∈ persistence.own ∨ persistence.seen = some contents

/-- Before the rename the file is as remembered. -/
def ReadyFor (persistence : SettingsPersistence) (file : ConfigFile) : Prop :=
  ∀ document temporary, persistence.stage = .replacing document temporary →
    persistence.saved.Shows file

variable {persistence : SettingsPersistence}

theorem readyFor_of_stage {file : ConfigFile}
    (h : ∀ document temporary, persistence.stage ≠ .replacing document temporary) :
    persistence.ReadyFor file :=
  fun document temporary hstage => absurd hstage (h document temporary)

theorem Remembers.startSave (h : persistence.Remembers) (config : AppConfig) :
    (persistence.startSave config).Remembers := by
  unfold SettingsPersistence.startSave
  split
  · exact h
  · exact h

theorem startSave_readyFor (config : AppConfig) (file : ConfigFile) :
    (persistence.startSave config).ReadyFor file := by
  unfold startSave
  split
  · exact readyFor_of_stage fun _ _ => by simp [fail]
  · exact readyFor_of_stage fun _ _ => by simp [observes]

theorem accepted_remembers (current : FileSnapshot) : (persistence.accepted current).Remembers :=
  fun _ hcontents => .inr hcontents

/-- A snapshot that is complete keeps what is remembered within what the object wrote or saw,
provided that the one after a rename does. -/
theorem Remembers.finish (h : persistence.Remembers) {current : FileSnapshot}
    {purpose : SavePurpose}
    (hown : purpose = .remember → ∀ contents, current.content = some contents →
      contents ∈ persistence.own ∨ persistence.seen = some contents) :
    (persistence.finish store longDouble yamlText current purpose).Remembers := by
  cases purpose with
  | construct => exact accepted_remembers current
  | accept =>
    dsimp only [SettingsPersistence.finish]
    split
    · exact h
    · exact accepted_remembers current
  | check config =>
    dsimp only [SettingsPersistence.finish]
    split
    · exact h
    · split
      · exact h
      · exact h
  | confirm document temporary =>
    dsimp only [SettingsPersistence.finish]
    split
    · exact h
    · exact h
  | remember => exact hown rfl

/-- Only the check before the rename leads to it, and it leaves the file as remembered. -/
theorem finish_readyFor {current : FileSnapshot} {file : ConfigFile} {stage : SnapshotStage}
    (hlook : observe file stage = .inr current) (purpose : SavePurpose) :
    (persistence.finish store longDouble yamlText current purpose).ReadyFor file := by
  cases purpose with
  | construct => exact readyFor_of_stage fun _ _ => by simp [finish, accepted, remembered]
  | accept =>
    dsimp only [finish]
    split
    · exact readyFor_of_stage fun _ _ => by simp [fail]
    · exact readyFor_of_stage fun _ _ => by simp [accepted, remembered]
  | check config =>
    dsimp only [finish]
    split
    · exact readyFor_of_stage fun _ _ => by simp [fail]
    · split
      · exact readyFor_of_stage fun _ _ => by simp
      · exact readyFor_of_stage fun _ _ => by simp [fail]
  | confirm document temporary =>
    dsimp only [finish]
    by_cases hchanged : persistence.saved.hasChanged current = true
    · rw [if_pos hchanged]
      exact readyFor_of_stage fun _ _ => by simp [fail]
    · rw [if_neg hchanged]
      exact fun _ _ _ => FileSnapshot.shows_of_unchanged hlook (Bool.eq_false_iff.mpr hchanged)
  | remember => exact readyFor_of_stage fun _ _ => by simp [finish, remembered]

end SettingsPersistence

/-! ### The preferences -/

namespace PreferencesSave

/-- The document that a preference save is about to write or has written. -/
def document? (save : PreferencesSave) : Option (PreferencesTask × List UInt8) :=
  match save.stage with
  | .writing task document | .confirming _ task document _ | .replacing task document _ =>
    some (task, document)
  | _ => none

variable (store longDouble yamlText) in
/-- The document was made from its source. -/
def Composed (save : PreferencesSave) : Prop :=
  ∀ task document, save.document? = some (task, document) →
    preferencesDocument store longDouble yamlText task.request task.source = .ok document

/-- Before the rename the file is as at the start. -/
def ReadyFor (save : PreferencesSave) (file : ConfigFile) : Prop :=
  ∀ task document temporary, save.stage = .replacing task document temporary →
    task.expected.Shows file

variable {save : PreferencesSave}

theorem composed_of_none (h : save.document? = none) :
    save.Composed store longDouble yamlText := by
  intro task document hdocument
  rw [h] at hdocument
  cases hdocument

theorem readyFor_of_stage {file : ConfigFile}
    (h : ∀ task document temporary, save.stage ≠ .replacing task document temporary) :
    save.ReadyFor file :=
  fun task document temporary hstage => absurd hstage (h task document temporary)

theorem compose_composed (task : PreferencesTask) :
    (compose store longDouble yamlText task).Composed store longDouble yamlText := by
  unfold compose
  split
  · rename_i document hdocument
    intro task' document' heq
    cases heq
    exact hdocument
  · exact composed_of_none rfl

theorem compose_readyFor (task : PreferencesTask) (file : ConfigFile) :
    (compose store longDouble yamlText task).ReadyFor file := by
  unfold compose
  split
  · exact readyFor_of_stage fun _ _ _ => by simp
  · exact readyFor_of_stage fun _ _ _ => by simp [failed]

end PreferencesSave

/-! ### Runs -/

namespace ConfigWorld

/-- Nobody else changes the file between the last check of a save and its rename. -/
def Undisturbed (world : ConfigWorld) (event : ConfigEvent) : Prop :=
  (∀ document temporary, world.persistence.stage = .replacing document temporary →
      (∀ file, event ≠ .edit file) ∧ ∀ time, event ≠ .rename .preferences (.ok time)) ∧
    ∀ task document temporary, world.preferences.stage = .replacing task document temporary →
      (∀ file, event ≠ .edit file) ∧ ∀ time, event ≠ .rename .settings (.ok time)

/-- The snapshot after a rename shows what the object has written or seen. -/
def ReadsBackOwn (world : ConfigWorld) (event : ConfigEvent) : Prop :=
  event = .look .settings → ∀ snapshot current,
    world.persistence.stage = .observing snapshot .remember →
    observe world.file snapshot = .inr current →
    ∀ contents, current.content = some contents →
      contents ∈ world.persistence.own ∨ world.persistence.seen = some contents

/-- A preference save replaces the file with a document read from the content of its snapshot. -/
def LoadsExpected (world : ConfigWorld) (event : ConfigEvent) : Prop :=
  ∀ time, event = .rename .preferences (.ok time) → ∀ task document temporary,
    world.preferences.stage = .replacing task document temporary →
    task.source = task.expected.content

/-- The worlds that a run reaches whose steps are all allowed. -/
inductive Reachable (store : ConfigStore) (longDouble : LongDouble) (yamlText : YamlText)
    (allowed : ConfigWorld → ConfigEvent → Prop) : ConfigWorld → Prop
  | start (file : ConfigFile) : Reachable store longDouble yamlText allowed { file := file }
  | step {world next : ConfigWorld} {event : ConfigEvent}
      (h : Reachable store longDouble yamlText allowed world) (hallowed : allowed world event)
      (hstep : world.step store longDouble yamlText event = some next) :
      Reachable store longDouble yamlText allowed next

/-- The steps of runs in which every save reads what its object wrote or took its snapshot of. -/
structure Orderly (world : ConfigWorld) (event : ConfigEvent) : Prop where
  undisturbed : world.Undisturbed event
  readsBack : world.ReadsBackOwn event
  loads : world.LoadsExpected event

variable (store longDouble yamlText) in
/-- What holds throughout such a run. -/
structure Consistent (world : ConfigWorld) : Prop where
  remembers : world.persistence.Remembers
  settingsReady : world.persistence.ReadyFor world.file
  composed : world.preferences.Composed store longDouble yamlText
  preferencesReady : world.preferences.ReadyFor world.file

variable {world next : ConfigWorld}

theorem Consistent.withPersistence (h : world.Consistent store longDouble yamlText)
    {persistence : SettingsPersistence} (hremembers : persistence.Remembers)
    (hready : persistence.ReadyFor world.file) :
    (world.withPersistence persistence).Consistent store longDouble yamlText :=
  ⟨hremembers, hready, h.composed, h.preferencesReady⟩

theorem Consistent.withPreferences (h : world.Consistent store longDouble yamlText)
    {preferences : PreferencesSave} (hcomposed : preferences.Composed store longDouble yamlText)
    (hready : preferences.ReadyFor world.file) :
    (world.withPreferences preferences).Consistent store longDouble yamlText :=
  ⟨h.remembers, h.settingsReady, hcomposed, hready⟩

/-- A save that has no document is waiting for one or has ended. -/
theorem Consistent.withoutDocument (h : world.Consistent store longDouble yamlText)
    {preferences : PreferencesSave} (hnone : preferences.document? = none) :
    (world.withPreferences preferences).Consistent store longDouble yamlText := by
  refine h.withPreferences (composed_of_none hnone)
    (readyFor_of_stage fun _ _ _ hstage => ?_)
  rw [document?, hstage] at hnone
  cases hnone

theorem consistent_start (file : ConfigFile) :
    ({ file := file } : ConfigWorld).Consistent store longDouble yamlText where
  remembers := fun contents hcontents => by cases hcontents
  settingsReady := readyFor_of_stage fun _ _ => by simp
  composed := composed_of_none rfl
  preferencesReady := readyFor_of_stage fun _ _ _ => by simp

theorem Consistent.lookSettings (h : world.Consistent store longDouble yamlText)
    (hreads : world.ReadsBackOwn (.look .settings))
    (hstep : world.lookSettings store longDouble yamlText = some next) :
    next.Consistent store longDouble yamlText := by
  unfold ConfigWorld.lookSettings at hstep
  split at hstep
  · rename_i snapshot purpose hstage
    split at hstep
    · cases hstep
      exact h.withPersistence h.remembers
        (readyFor_of_stage fun _ _ => by simp)
    · rename_i current hlook
      cases hstep
      refine h.withPersistence (h.remembers.finish ?_)
        (finish_readyFor hlook purpose)
      rintro rfl
      exact hreads rfl snapshot current hstage hlook
  · cases hstep

theorem Consistent.lookPreferences (h : world.Consistent store longDouble yamlText)
    (hstep : world.lookPreferences store longDouble yamlText = some next) :
    next.Consistent store longDouble yamlText := by
  have hcomposed := h.composed
  unfold ConfigWorld.lookPreferences at hstep
  split at hstep
  · split at hstep
    · cases hstep
      exact h.withoutDocument rfl
    · cases hstep
      split
      · exact h.withoutDocument rfl
      · exact h.withoutDocument rfl
  · split at hstep
    · cases hstep
      exact h.withPreferences (compose_composed _)
        (compose_readyFor _ _)
    · cases hstep
      exact h.withoutDocument rfl
    · cases hstep
      exact h.withoutDocument rfl
  · split at hstep
    · cases hstep
      exact h.withPreferences (compose_composed _)
        (compose_readyFor _ _)
    · cases hstep
      exact h.withoutDocument rfl
  · rename_i snapshot task document temporary hstage
    have hsource := hcomposed task document (by rw [document?, hstage])
    split at hstep
    · cases hstep
      refine h.withPreferences ?_ (readyFor_of_stage fun _ _ _ => by simp)
      rintro task' document' heq
      cases heq
      exact hsource
    · rename_i current hlook
      cases hstep
      by_cases hchanged : task.expected.hasChanged current = true
      · rw [if_pos hchanged]
        exact h.withoutDocument rfl
      · rw [if_neg hchanged]
        refine h.withPreferences ?_ ?_
        · rintro task' document' heq
          cases heq
          exact hsource
        · rintro task' document' temporary' heq
          cases heq
          exact FileSnapshot.shows_of_unchanged hlook (Bool.eq_false_iff.mpr hchanged)
  · cases hstep

theorem Consistent.write (h : world.Consistent store longDouble yamlText) {saver : Saver}
    {outcome : Except String String} (hstep : world.write saver outcome = some next) :
    next.Consistent store longDouble yamlText := by
  have hcomposed := h.composed
  unfold ConfigWorld.write at hstep
  split at hstep
  · split at hstep
    · cases hstep
      exact h.withPersistence h.remembers
        (readyFor_of_stage fun _ _ => by simp [observes])
    · cases hstep
      exact h.withPersistence h.remembers
        (readyFor_of_stage fun _ _ => by simp [fail])
  · rename_i _ task document hstage
    split at hstep
    · cases hstep
      refine h.withPreferences ?_ (readyFor_of_stage fun _ _ _ => by simp)
      rintro task' document' heq
      cases heq
      exact hcomposed task document (by rw [document?, hstage])
    · cases hstep
      exact h.withoutDocument rfl
  · cases hstep

/-- A save that is ready stays so while nobody changes the file. -/
theorem Consistent.rename (h : world.Consistent store longDouble yamlText) {saver : Saver}
    {outcome : Except String ℕ} (hquiet : world.Undisturbed (.rename saver outcome))
    (hstep : world.rename saver outcome = some next) :
    next.Consistent store longDouble yamlText := by
  unfold ConfigWorld.rename at hstep
  split at hstep
  · split at hstep
    · rename_i timestampMs
      cases hstep
      refine ⟨fun contents hcontents => ?_, ?_, h.composed, ?_⟩
      · exact (h.remembers contents hcontents).imp (List.mem_cons_of_mem _) id
      · exact readyFor_of_stage fun _ _ => by
          simp [observes]
      · exact fun task document temporary hstage =>
          absurd rfl ((hquiet.2 task document temporary hstage).2 timestampMs)
    · cases hstep
      exact h.withPersistence h.remembers
        (readyFor_of_stage fun _ _ => by simp [fail])
  · split at hstep
    · rename_i timestampMs
      cases hstep
      refine ⟨h.remembers, ?_, composed_of_none rfl,
        readyFor_of_stage fun _ _ _ => by simp⟩
      exact fun document temporary hstage =>
        absurd rfl ((hquiet.1 document temporary hstage).2 timestampMs)
    · cases hstep
      exact h.withoutDocument rfl
  · cases hstep

variable {event : ConfigEvent}

/-- **Every step of an orderly run keeps the world consistent.** -/
theorem Consistent.step (h : world.Consistent store longDouble yamlText)
    (horderly : world.Orderly event)
    (hstep : world.step store longDouble yamlText event = some next) :
    next.Consistent store longDouble yamlText := by
  cases event with
  | edit file =>
    cases hstep
    refine ⟨h.remembers, ?_, h.composed, ?_⟩
    · exact fun document temporary hstage =>
        absurd rfl ((horderly.undisturbed.1 document temporary hstage).1 file)
    · exact fun task document temporary hstage =>
        absurd rfl ((horderly.undisturbed.2 task document temporary hstage).1 file)
  | startSave config =>
    unfold ConfigWorld.step at hstep
    dsimp only at hstep
    split at hstep
    · cases hstep
      exact h.withPersistence (h.remembers.startSave config)
        (startSave_readyFor config _)
    · cases hstep
  | startAccept =>
    unfold ConfigWorld.step at hstep
    dsimp only at hstep
    split at hstep
    · cases hstep
      exact h.withPersistence h.remembers
        (readyFor_of_stage fun _ _ => by simp [observes])
    · cases hstep
  | startPreferences request =>
    unfold ConfigWorld.step at hstep
    dsimp only at hstep
    split at hstep
    · cases hstep
      exact h.withoutDocument rfl
    · cases hstep
  | look saver =>
    cases saver with
    | settings => exact h.lookSettings horderly.readsBack hstep
    | preferences => exact h.lookPreferences hstep
  | write saver outcome => exact h.write hstep
  | rename saver outcome => exact h.rename horderly.undisturbed hstep

theorem Reachable.consistent
    (h : Reachable store longDouble yamlText Orderly world) :
    world.Consistent store longDouble yamlText := by
  induction h with
  | start file => exact consistent_start file
  | step _ horderly hstep ih => exact ih.step horderly hstep

/-! ### What saves replace -/

/-- The file holds these bytes, or nothing that could be lost. -/
def HoldsOnly (file : ConfigFile) (allowed : List UInt8 → Prop) : Prop :=
  file = .absent ∨ ∃ contents timestampMs, file = .present (.regular contents) timestampMs ∧
    allowed contents

/-- Only an edit of another program and a rename that succeeds change the file. -/
theorem step_file (hstep : world.step store longDouble yamlText event = some next) :
    next.file = world.file ∨ (∃ file, event = .edit file) ∨
      ∃ saver time, event = .rename saver (.ok time) := by
  cases event with
  | edit file => exact .inr (.inl ⟨file, rfl⟩)
  | startSave config =>
    unfold ConfigWorld.step at hstep
    dsimp only at hstep
    split at hstep <;> cases hstep
    exact .inl rfl
  | startAccept =>
    unfold ConfigWorld.step at hstep
    dsimp only at hstep
    split at hstep <;> cases hstep
    exact .inl rfl
  | startPreferences request =>
    unfold ConfigWorld.step at hstep
    dsimp only at hstep
    split at hstep <;> cases hstep
    exact .inl rfl
  | look saver =>
    left
    cases saver with
    | settings =>
      dsimp only [ConfigWorld.step, lookSettings] at hstep
      repeat' split at hstep
      all_goals cases hstep
      all_goals rfl
    | preferences =>
      dsimp only [ConfigWorld.step, lookPreferences] at hstep
      repeat' split at hstep
      all_goals cases hstep
      all_goals rfl
  | write saver outcome =>
    left
    dsimp only [ConfigWorld.step, write] at hstep
    repeat' split at hstep
    all_goals cases hstep
    all_goals rfl
  | rename saver outcome =>
    cases outcome with
    | ok time => exact .inr (.inr ⟨saver, time, rfl⟩)
    | error error =>
      left
      dsimp only [ConfigWorld.step, rename] at hstep
      repeat' split at hstep
      all_goals cases hstep
      all_goals rfl

/-- What every step of a run should keep: a settings save replaces what its object wrote or saw,
nothing but edits and renames changes the file, and a preference save keeps the other keys. -/
structure KeepsEdits (yamlText : YamlText) (world : ConfigWorld) (event : ConfigEvent)
    (next : ConfigWorld) : Prop where
  replaces : ∀ time, event = .rename .settings (.ok time) →
    HoldsOnly world.file fun contents =>
      contents ∈ world.persistence.own ∨ world.persistence.seen = some contents
  unchanged : next.file = world.file ∨ (∃ file, event = .edit file) ∨
    ∃ saver time, event = .rename saver (.ok time)
  keeps : ∀ time, event = .rename .preferences (.ok time) → ∃ task document temporary root,
    world.preferences.stage = .replacing task document temporary ∧
      next.file = .present (.regular (yamlText.dump root)) time ∧
      HoldsOnly world.file fun contents => ∃ replaced, yamlText.load contents = .ok replaced ∧
        KeepsOtherKeys task.request.assignments replaced root

theorem preferencesDocument_eq_ok {request : PreferencesRequest} {source : Option (List UInt8)}
    {document : List UInt8}
    (h : preferencesDocument store longDouble yamlText request source = .ok document) :
    ∃ root, document = yamlText.dump root ∧ ∀ contents, source = some contents →
      ∃ replaced, yamlText.load contents = .ok replaced ∧
        KeepsOtherKeys request.assignments replaced root := by
  obtain ⟨loaded, hloaded, h⟩ := bind_eq_ok.mp h
  obtain ⟨root, hroot, h⟩ := bind_eq_ok.mp h
  cases h
  refine ⟨root, rfl, fun contents hsource => ?_⟩
  subst hsource
  obtain ⟨replaced, hreplaced, hchecked⟩ := bind_eq_ok.mp hloaded
  split at hchecked
  · obtain ⟨_, -, hchecked⟩ := bind_eq_ok.mp hchecked
    cases hchecked
    exact ⟨loaded, hreplaced, assignAll_keeps hroot⟩
  · cases hchecked

/-- Looks, starts and writes disturb nobody. -/
theorem undisturbed_of_quiet (hedit : ∀ file, event ≠ .edit file)
    (hrename : ∀ saver time, event ≠ .rename saver (.ok time)) : world.Undisturbed event :=
  ⟨fun _ _ _ => ⟨hedit, hrename _⟩, fun _ _ _ _ => ⟨hedit, hrename _⟩⟩

/-- The document of a preference save on a file that is not there, as the library writes it. -/
def sampleText : YamlText where
  load _ := .error "bad file"
  dump
    | .map [(gui, .map [(dialogs, .map [(importKey, .scalar (.text importPath)),
        (exportKey, .scalar (.text exportPath)), (directories, .map [])])])] =>
      (gui ++ ":\n  " ++ dialogs ++ ":\n    " ++ importKey ++ ": " ++ importPath ++ "\n    " ++
        exportKey ++ ": " ++ exportPath ++ "\n    " ++ directories ++ ":\n      \x7b\x7d"
        ).toUTF8.data.toList
    | _ => []

def sampleRequest : PreferencesRequest where
  preferences := { lastImportDirectory := "/in", lastExportDirectory := "/out" }
  lastExport := none

theorem orderly_of_quiet (hedit : ∀ file, event ≠ .edit file)
    (hrename : ∀ saver time, event ≠ .rename saver (.ok time)) (hlook : event ≠ .look .settings) :
    world.Orderly event :=
  ⟨undisturbed_of_quiet hedit hrename, fun h => absurd h hlook, fun _ h => absurd h (hrename _ _)⟩

theorem Reachable.preferencesStep (h : Reachable store longDouble yamlText Orderly world)
    (hedit : ∀ file, event ≠ .edit file) (hrename : ∀ saver time, event ≠ .rename saver (.ok time))
    (hlook : event ≠ .look .settings)
    (hstep : world.step store longDouble yamlText event = some next) :
    Reachable store longDouble yamlText Orderly next :=
  .step h (orderly_of_quiet hedit hrename hlook) hstep

theorem Reachable.quiet (h : Reachable store longDouble yamlText Undisturbed world)
    (hedit : ∀ file, event ≠ .edit file) (hrename : ∀ saver time, event ≠ .rename saver (.ok time))
    (hstep : world.step store longDouble yamlText event = some next) :
    Reachable store longDouble yamlText Undisturbed next :=
  .step h (undisturbed_of_quiet hedit hrename) hstep

/-- A configuration that is written without scaling its defaults. -/
def adaptiveConfig : AppConfig where
  performance := { adaptive := { enabled := true } }

theorem settingsDocument_adaptive (store : ConfigStore) (longDouble : LongDouble)
    (yamlText : YamlText) :
    ∃ document, settingsDocument store longDouble yamlText adaptiveConfig = .ok document :=
  ⟨_, rfl⟩

/-- The settings at some stage, and a file whose content is the remembered one. -/
def remembering (contents : List UInt8) (time : ℕ) (own : List (List UInt8))
    (seen : Option (List UInt8)) (stage : SaveStage) : ConfigWorld where
  file := .present (.regular contents) time
  persistence := {
    saved := { timestampMs := time, isThere := true, contents := contents }
    stage := stage
    own := own
    seen := seen }

section Remembering

variable {document contents : List UInt8} {time : ℕ} {own : List (List UInt8)}
  {seen : Option (List UInt8)}

/-- A snapshot of the file, up to its last look. -/
theorem Reachable.looks {purpose : SavePurpose}
    (h : Reachable store longDouble yamlText Undisturbed
      (remembering contents time own seen (.observing .existence purpose))) :
    Reachable store longDouble yamlText Undisturbed
      (remembering contents time own seen (.observing (.contents time) purpose)) := by
  have hkind : Reachable store longDouble yamlText Undisturbed
      (remembering contents time own seen (.observing .kind purpose)) :=
    h.quiet (by simp) (by simp) (rfl : ConfigWorld.step _ _ _ _ (.look .settings) = _)
  have htime : Reachable store longDouble yamlText Undisturbed
      (remembering contents time own seen (.observing .time purpose)) :=
    hkind.quiet (by simp) (by simp) (rfl : ConfigWorld.step _ _ _ _ (.look .settings) = _)
  exact htime.quiet (by simp) (by simp) (rfl : ConfigWorld.step _ _ _ _ (.look .settings) = _)

/-- A save over a file that is as remembered gets to its rename. -/
theorem Reachable.save
    (hdocument : settingsDocument store longDouble yamlText adaptiveConfig = .ok document)
    (h : Reachable store longDouble yamlText Undisturbed (remembering contents time own seen .idle)) :
    Reachable store longDouble yamlText Undisturbed
      (remembering contents time own seen (.replacing document "")) := by
  have hsame : FileSnapshot.hasChanged { timestampMs := time, isThere := true, contents := contents }
      { timestampMs := time, isThere := true, contents := contents } = false := by
    simp [FileSnapshot.hasChanged]
  have hstarted : Reachable store longDouble yamlText Undisturbed
      (remembering contents time own seen (.observing .existence (.check adaptiveConfig))) :=
    h.quiet (by simp) (by simp) (rfl : ConfigWorld.step _ _ _ _ (.startSave adaptiveConfig) = _)
  have hchecked : Reachable store longDouble yamlText Undisturbed
      (remembering contents time own seen (.writing document)) := by
    refine hstarted.looks.quiet (by simp) (by simp)
      (?_ : ConfigWorld.step _ _ _ _ (.look .settings) = _)
    dsimp only [ConfigWorld.step, lookSettings, remembering, observe, finish]
    rw [hsame, hdocument]
    rfl
  have hwritten : Reachable store longDouble yamlText Undisturbed
      (remembering contents time own seen (.observing .existence (.confirm document ""))) :=
    hchecked.quiet (by simp) (by simp) (rfl : ConfigWorld.step _ _ _ _ (.write .settings (.ok "")) = _)
  refine hwritten.looks.quiet (by simp) (by simp)
    (?_ : ConfigWorld.step _ _ _ _ (.look .settings) = _)
  dsimp only [ConfigWorld.step, lookSettings, remembering, observe, finish]
  rw [hsame]
  rfl

end Remembering

end ConfigWorld

end Parameters

end ProtoScope.Config
