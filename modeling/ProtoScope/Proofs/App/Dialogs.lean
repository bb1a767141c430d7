/-
Which dialogs can be answered, and which keys are blocked.

As long as no dialog is accepted under the number of one that is open, the open dialogs are those
that are not answered, each under its own number, and the blocked keys are theirs.  The
application numbers its dialogs by the time, so two of them in one millisecond break this.
-/
import ProtoScope.App.Dialogs

namespace ProtoScope.App

open ProtoScope.Library
open ProtoScope.Transport (ConnectionContext)
open DialogRegistry DialogSystem KeyedRows DialogRegistry

/-! ### Numbers that are free -/

/-- A dialog that is accepted gets a number under which no dialog is open. -/
def NumberFree (registry : DialogRegistry) (id : ℕ) (key : String) : Prop :=
  registry.blocks key = false → id ∉ keys registry.openDialogs

/-- The alert about the buffer comes with a dialog. -/
def wantsPopup (registry : DialogRegistry) (context : ConnectionContext)
    (report : StreamBufferReport) : Prop :=
  report.bufferCapacity ≠ 0 ∧ report.overflowed = false ∧ report.nearOverflow = true ∧
    report.definitionPopupEnabled = true ∧ report.configPopupEnabled = true ∧
    (registry.streamBufferAlertState.connectionId = context.connectionId →
      registry.streamBufferAlertState.popupMuted = false ∧
        registry.streamBufferAlertState.popupOpen = false)

def StepFree (system : DialogSystem) : DialogStep → Prop
  | .script refused _ dedupeKey _ =>
    NumberFree system.registry (system.nextDialogId + refused) dedupeKey
  | .txOverflow popupOnce nowMs _ =>
    popupOnce = true → NumberFree system.registry nowMs overflowKey
  | .streamBufferAlert context report nowMs =>
    wantsPopup system.registry context report → NumberFree system.registry nowMs nearOverflowKey
  | _ => True

/-- Every step of the run finds its number free. -/
def RunFree (runtimeGeneration : ℕ) : DialogSystem → List DialogStep → Prop
  | _, [] => True
  | system, step :: steps =>
    StepFree system step ∧ RunFree runtimeGeneration (system.step runtimeGeneration step) steps

/-! ### What the registry keeps -/

/-- The registry keeps the dialogs that are not answered. -/
structure Keeps (registry : DialogRegistry) (dialogs : List DialogRequest) : Prop where
  numbers : (dialogs.map (·.id)).Nodup
  openKeys : (keys registry.openDialogs).Nodup
  open_iff : ∀ id dialog, (id, dialog) ∈ registry.openDialogs ↔
    dialog ∈ dialogs ∧ dialog.id = id
  dedupeKeys : (keys registry.dialogDedupeKeys).Nodup
  dedupe_iff : ∀ key id, (key, id) ∈ registry.dialogDedupeKeys ↔
    key ≠ "" ∧ ∃ dialog ∈ dialogs, dialog.dedupeKey = key ∧ dialog.id = id
  apart : ∀ first ∈ dialogs, ∀ second ∈ dialogs, first.dedupeKey = second.dedupeKey →
    first.dedupeKey ≠ "" → first = second

section Keeps

variable {registry : DialogRegistry} {dialogs rest : List DialogRequest} {dialog : DialogRequest}

/-- Only what is kept counts, and of the dialogs only which they are. -/
theorem Keeps.congr {registry' : DialogRegistry} (h : Keeps registry dialogs)
    (hopen : registry'.openDialogs = registry.openDialogs)
    (hdedupe : registry'.dialogDedupeKeys = registry.dialogDedupeKeys)
    (hperm : dialogs.Perm rest) : Keeps registry' rest := by
  obtain ⟨hnumbers, hopenKeys, hopenIff, hdedupeKeys, hdedupeIff, hapart⟩ := h
  refine ⟨(hperm.map _).nodup_iff.mp hnumbers, ?_, fun id dialog => ?_, ?_, fun key id => ?_,
    fun first hfirst second hsecond => hapart first (hperm.mem_iff.mpr hfirst) second
      (hperm.mem_iff.mpr hsecond)⟩
  · rw [hopen]
    exact hopenKeys
  · rw [hopen, hopenIff, hperm.mem_iff]
  · rw [hdedupe]
    exact hdedupeKeys
  · rw [hdedupe, hdedupeIff]
    simp only [hperm.mem_iff]

theorem Keeps.mem_keys_open (h : Keeps registry dialogs) {id : ℕ} :
    id ∈ keys registry.openDialogs ↔ ∃ dialog ∈ dialogs, dialog.id = id := by
  unfold keys
  rw [List.mem_map]
  constructor
  · rintro ⟨row, hrow, rfl⟩
    exact ⟨row.2, (h.open_iff row.1 row.2).mp hrow⟩
  · rintro ⟨dialog, hdialog⟩
    exact ⟨(id, dialog), (h.open_iff id dialog).mpr hdialog, rfl⟩

/-- **The blocked keys are those of the dialogs that are not answered.** -/
theorem Keeps.blocks_iff (h : Keeps registry dialogs) {key : String} :
    registry.blocks key = true ↔ key ≠ "" ∧ ∃ dialog ∈ dialogs, dialog.dedupeKey = key := by
  unfold blocks
  rw [Bool.and_eq_true, decide_eq_true_eq, find_isSome]
  unfold keys
  rw [List.mem_map]
  constructor
  · rintro ⟨hkey, row, hrow, rfl⟩
    obtain ⟨-, dialog, hdialog, hsame, -⟩ := (h.dedupe_iff row.1 row.2).mp hrow
    exact ⟨hkey, dialog, hdialog, hsame⟩
  · rintro ⟨hkey, dialog, hdialog, hsame⟩
    exact ⟨hkey, (key, dialog.id),
      (h.dedupe_iff key dialog.id).mpr ⟨hkey, dialog, hdialog, hsame, rfl⟩, rfl⟩

/-- An open dialog is found under its number. -/
theorem Keeps.find_open (h : Keeps registry dialogs) (hdialog : dialog ∈ dialogs) :
    find dialog.id registry.openDialogs = some dialog :=
  find_of_mem h.openKeys ((h.open_iff dialog.id dialog).mpr ⟨hdialog, rfl⟩)

/-! ### Accepting and answering -/

/-- A dialog that is accepted is kept with the others. -/
theorem Keeps.enqueue {request : DialogRequest} (h : Keeps registry dialogs)
    (haccepted : registry.blocks request.dedupeKey = false)
    (hfree : request.id ∉ keys registry.openDialogs) :
    Keeps (registry.enqueueDialogRequest request) (dialogs ++ [request]) ∧
      (registry.enqueueDialogRequest request).pendingDialogs =
        registry.pendingDialogs ++ [request] := by
  have hnumber : ∀ dialog ∈ dialogs, dialog.id ≠ request.id := fun dialog hdialog heq =>
    hfree (h.mem_keys_open.mpr ⟨dialog, hdialog, heq⟩)
  have hkey : ∀ dialog ∈ dialogs, request.dedupeKey ≠ "" →
      dialog.dedupeKey ≠ request.dedupeKey := by
    intro dialog hdialog hne heq
    have hblocked := h.blocks_iff.mpr ⟨hne, dialog, hdialog, heq⟩
    rw [haccepted] at hblocked
    cases hblocked
  unfold enqueueDialogRequest
  rw [haccepted, if_neg Bool.false_ne_true]
  refine ⟨⟨?_, ?_, fun id dialog => ?_, ?_, fun key id => ?_, ?_⟩, rfl⟩
  · rw [List.map_append, List.nodup_append]
    refine ⟨h.numbers, List.pairwise_singleton _ _, fun number hnumberMem other hother => ?_⟩
    obtain ⟨dialog, hdialog, rfl⟩ := List.mem_map.mp hnumberMem
    rw [List.mem_singleton.mp hother]
    exact hnumber dialog hdialog
  · exact nodup_keys_upsert h.openKeys
  · dsimp only
    rw [upsert_of_not_mem request hfree, List.mem_append, h.open_iff, List.mem_append,
      List.mem_singleton, List.mem_singleton, Prod.mk.injEq]
    constructor
    · rintro (hold | ⟨rfl, rfl⟩)
      · exact ⟨Or.inl hold.1, hold.2⟩
      · exact ⟨Or.inr rfl, rfl⟩
    · rintro ⟨hold | rfl, hid⟩
      · exact Or.inl ⟨hold, hid⟩
      · exact Or.inr ⟨hid.symm, rfl⟩
  · dsimp only
    split
    · exact nodup_keys_upsert h.dedupeKeys
    · exact h.dedupeKeys
  · dsimp only
    by_cases hne : request.dedupeKey ≠ ""
    · have hnew : request.dedupeKey ∉ keys registry.dialogDedupeKeys := by
        intro hmem
        unfold blocks at haccepted
        rw [find_isSome.mpr hmem, decide_eq_true hne] at haccepted
        cases haccepted
      rw [if_pos hne, upsert_of_not_mem _ hnew, List.mem_append, h.dedupe_iff,
        List.mem_singleton, Prod.mk.injEq]
      constructor
      · rintro (⟨hkeyNe, dialog, hdialog, hsame⟩ | ⟨rfl, rfl⟩)
        · exact ⟨hkeyNe, dialog, List.mem_append_left _ hdialog, hsame⟩
        · exact ⟨hne, request, List.mem_append_right _ (List.mem_singleton_self _), rfl, rfl⟩
      · rintro ⟨hkeyNe, dialog, hdialog, hsame, hid⟩
        rcases List.mem_append.mp hdialog with hold | hnewest
        · exact Or.inl ⟨hkeyNe, dialog, hold, hsame, hid⟩
        · rw [List.mem_singleton.mp hnewest] at hsame hid
          exact Or.inr ⟨hsame.symm, hid.symm⟩
    · rw [if_neg hne, h.dedupe_iff]
      constructor
      · rintro ⟨hkeyNe, dialog, hdialog, hsame⟩
        exact ⟨hkeyNe, dialog, List.mem_append_left _ hdialog, hsame⟩
      · rintro ⟨hkeyNe, dialog, hdialog, hsame, hid⟩
        rcases List.mem_append.mp hdialog with hold | hnewest
        · exact ⟨hkeyNe, dialog, hold, hsame, hid⟩
        · rw [List.mem_singleton.mp hnewest] at hsame
          exact absurd (not_not.mp hne) (by rw [hsame]; exact hkeyNe)
  · intro first hfirst second hsecond hsame hne
    rcases List.mem_append.mp hfirst with hold | hnew
    · rcases List.mem_append.mp hsecond with hold' | hnew'
      · exact h.apart first hold second hold' hsame hne
      · rw [List.mem_singleton.mp hnew'] at hsame
        exact absurd hsame (hkey first hold (hsame ▸ hne))
    · rw [List.mem_singleton.mp hnew] at hsame hne ⊢
      rcases List.mem_append.mp hsecond with hold' | hnew'
      · exact absurd hsame.symm (hkey second hold' hne)
      · exact (List.mem_singleton.mp hnew').symm

/-- What an answer to an open dialog does. -/
structure Answered (runtimeGeneration : ℕ) (registry registry' : DialogRegistry)
    (dialog : DialogRequest) (state : String) : Prop where
  posted : registry'.posted = registry.posted ++
    [(dialog.connection, ⟨dialog.id, state, some dialog.runtimeGeneration⟩)]
  /-- the callback is called for the dialogs of the runtime that is loaded -/
  called : callsOnDialog runtimeGeneration
    ⟨dialog.id, state, some dialog.runtimeGeneration⟩ = true ↔
      dialog.runtimeGeneration = runtimeGeneration
  freed : registry'.blocks dialog.dedupeKey = false
  /-- a second answer does nothing -/
  once : ∀ again, registry'.respondDialog runtimeGeneration ⟨dialog.id, again, none⟩ = registry'

/-- **An answer goes to the script with the dialog's own connection, once, and frees its key.** -/
theorem Keeps.respond (h : Keeps registry dialogs) (hperm : dialogs.Perm (dialog :: rest))
    (runtimeGeneration : ℕ) (state : String) :
    Keeps (registry.respondDialog runtimeGeneration ⟨dialog.id, state, none⟩) rest ∧
      Answered runtimeGeneration registry
        (registry.respondDialog runtimeGeneration ⟨dialog.id, state, none⟩) dialog state ∧
      (registry.respondDialog runtimeGeneration ⟨dialog.id, state, none⟩).pendingDialogs =
        registry.pendingDialogs := by
  replace h := h.congr rfl rfl hperm
  have hfind := h.find_open List.mem_cons_self
  obtain ⟨hnot, hnumbers⟩ := List.nodup_cons.mp (show (dialog.id :: rest.map (·.id)).Nodup from
    h.numbers)
  have hother : ∀ other ∈ rest, other.id ≠ dialog.id := fun other hmem heq =>
    hnot (List.mem_map.mpr ⟨other, hmem, heq⟩)
  have hanswered : ∀ event, (registry.answerNearOverflow dialog event).openDialogs =
      registry.openDialogs ∧ (registry.answerNearOverflow dialog event).dialogDedupeKeys =
      registry.dialogDedupeKeys ∧ (registry.answerNearOverflow dialog event).posted =
      registry.posted ∧ (registry.answerNearOverflow dialog event).pendingDialogs =
      registry.pendingDialogs := by
    intro event
    unfold answerNearOverflow
    split
    · exact ⟨rfl, rfl, rfl, rfl⟩
    · exact ⟨rfl, rfl, rfl, rfl⟩
  generalize hresult : registry.respondDialog runtimeGeneration ⟨dialog.id, state, none⟩ = after
  obtain ⟨hopen, hdedupe, hposted, hpending⟩ : after.openDialogs =
        erase dialog.id registry.openDialogs ∧
      after.dialogDedupeKeys = (if dialog.dedupeKey ≠ "" then
        erase dialog.dedupeKey registry.dialogDedupeKeys
        else registry.dialogDedupeKeys) ∧
      after.posted = registry.posted ++
        [(dialog.connection, ⟨dialog.id, state, some dialog.runtimeGeneration⟩)] ∧
      after.pendingDialogs = registry.pendingDialogs := by
    obtain ⟨hopen, hdedupe, hposted, hpending⟩ := hanswered ⟨dialog.id, state, none⟩
    rw [← hresult]
    unfold respondDialog
    rw [hfind]
    unfold postDialogEvent
    dsimp only
    rw [hopen, hdedupe, hposted, hpending]
    exact ⟨rfl, rfl, rfl, rfl⟩
  have hkeeps : Keeps after rest := by
    refine ⟨hnumbers, ?_, fun id other => ?_, ?_, fun key id => ?_, ?_⟩
    · rw [hopen]
      exact (keys_erase_sublist _ _).nodup h.openKeys
    · rw [hopen, mem_erase, h.open_iff, List.mem_cons]
      constructor
      · rintro ⟨⟨rfl | hmem, hid⟩, hne⟩
        · exact absurd hid.symm hne
        · exact ⟨hmem, hid⟩
      · rintro ⟨hmem, rfl⟩
        exact ⟨⟨Or.inr hmem, rfl⟩, hother other hmem⟩
    · rw [hdedupe]
      split
      · exact (keys_erase_sublist _ _).nodup h.dedupeKeys
      · exact h.dedupeKeys
    · have hsplit : (∃ other ∈ rest, other.dedupeKey = key ∧ other.id = id) ∧ key ≠ "" ↔
          (∃ other ∈ dialog :: rest, other.dedupeKey = key ∧ other.id = id) ∧ key ≠ "" ∧
            key ≠ dialog.dedupeKey := by
        constructor
        · rintro ⟨⟨other, hmem, hkey, hid⟩, hne⟩
          refine ⟨⟨other, List.mem_cons_of_mem _ hmem, hkey, hid⟩, hne, fun hsame => ?_⟩
          have heq := h.apart other (List.mem_cons_of_mem _ hmem) dialog List.mem_cons_self
            (hkey.trans hsame) (by rw [hkey]; exact hne)
          exact hother other hmem (congrArg (·.id) heq)
        · rintro ⟨⟨other, hmem, hkey, hid⟩, hne, hsame⟩
          rcases List.mem_cons.mp hmem with rfl | hmem
          · exact absurd hkey.symm hsame
          · exact ⟨⟨other, hmem, hkey, hid⟩, hne⟩
      rw [hdedupe, and_comm, hsplit]
      by_cases hne : dialog.dedupeKey ≠ ""
      · rw [if_pos hne, mem_erase, h.dedupe_iff]
        exact ⟨fun hrow => ⟨hrow.1.2, hrow.1.1, hrow.2⟩, fun hrow => ⟨⟨hrow.2.1, hrow.1⟩, hrow.2.2⟩⟩
      · rw [if_neg hne, h.dedupe_iff]
        refine ⟨fun hrow => ⟨hrow.2, hrow.1, fun hsame => ?_⟩, fun hrow => ⟨hrow.2.1, hrow.1⟩⟩
        exact hrow.1 (hsame.trans (not_not.mp hne))
    · exact fun first hfirst second hsecond => h.apart first (List.mem_cons_of_mem _ hfirst) second
        (List.mem_cons_of_mem _ hsecond)
  refine ⟨hkeeps, ⟨hposted, decide_eq_true_iff, ?_, fun again => ?_⟩, hpending⟩
  · rw [Bool.eq_false_iff, ne_eq, hkeeps.blocks_iff]
    rintro ⟨hne, other, hmem, hsame⟩
    have heq := h.apart other (List.mem_cons_of_mem _ hmem) dialog List.mem_cons_self hsame
      (by rw [hsame]; exact hne)
    exact hother other hmem (congrArg (·.id) heq)
  · have hgone : find dialog.id after.openDialogs = none := by
      rw [hopen]
      exact find_of_not_mem (not_mem_keys_erase _ _)
    unfold respondDialog
    rw [hgone]

end Keeps

/-- Whose dialog it is: the script's carry its runtime, the application's none. -/
def OfRuntime (runtimeGeneration : ℕ) (dialog : DialogRequest) : Prop :=
  dialog.runtimeGeneration = runtimeGeneration ∨
    dialog.runtimeGeneration = 0 ∧
      (dialog.dedupeKey = overflowKey ∨ dialog.dedupeKey = nearOverflowKey)

/-- What holds while every number is free. -/
structure Sound (runtimeGeneration : ℕ) (system : DialogSystem) : Prop where
  keeps : Keeps system.registry system.unanswered
  runtime : ∀ dialog ∈ system.unanswered, OfRuntime runtimeGeneration dialog

section Runs

variable {runtimeGeneration : ℕ} {system : DialogSystem}

theorem Sound.empty : Sound runtimeGeneration {} where
  keeps :=
    { numbers := List.nodup_nil
      openKeys := List.nodup_nil
      open_iff := fun _ _ => ⟨fun h => (List.not_mem_nil h).elim,
        fun h => (List.not_mem_nil h.1).elim⟩
      dedupeKeys := List.nodup_nil
      dedupe_iff := fun _ _ => ⟨fun h => (List.not_mem_nil h).elim,
        fun h => (by obtain ⟨_, _, hmem, _⟩ := h; exact (List.not_mem_nil hmem).elim)⟩
      apart := fun _ h => (List.not_mem_nil h).elim }
  runtime := fun _ h => (List.not_mem_nil h).elim

/-- The dialogs of the system stay the same when only the alert state changes. -/
theorem Sound.congr (registry : DialogRegistry) (h : Sound runtimeGeneration system)
    (hpending : registry.pendingDialogs = system.registry.pendingDialogs)
    (hopen : registry.openDialogs = system.registry.openDialogs)
    (hdedupe : registry.dialogDedupeKeys = system.registry.dialogDedupeKeys) (next : ℕ) :
    Sound runtimeGeneration ⟨registry, next, system.handed⟩ := by
  have hsame : (⟨registry, next, system.handed⟩ : DialogSystem).unanswered = system.unanswered := by
    unfold unanswered
    rw [hpending]
  constructor
  · rw [hsame]
    exact h.keeps.congr hopen hdedupe (List.Perm.refl _)
  · rw [hsame]
    exact h.runtime

theorem Sound.withAlert (h : Sound runtimeGeneration system) (alert : StreamBufferAlertState) :
    Sound runtimeGeneration
      { system with registry := { system.registry with streamBufferAlertState := alert } } :=
  h.congr { system.registry with streamBufferAlertState := alert } rfl rfl rfl _

/-- A dialog that is accepted joins the others; one whose key is blocked changes nothing. -/
theorem Sound.enqueue (request : DialogRequest) (h : Sound runtimeGeneration system)
    (hfree : NumberFree system.registry request.id request.dedupeKey)
    (hruntime : OfRuntime runtimeGeneration request) (next : ℕ) :
    Sound runtimeGeneration
      ⟨system.registry.enqueueDialogRequest request, next, system.handed⟩ := by
  cases hblocked : system.registry.blocks request.dedupeKey with
  | true =>
    unfold enqueueDialogRequest
    rw [hblocked, if_pos rfl]
    exact h.congr _ rfl rfl rfl next
  | false =>
    obtain ⟨hkeeps, hpending⟩ := h.keeps.enqueue hblocked (hfree hblocked)
    have hsame : (⟨system.registry.enqueueDialogRequest request, next, system.handed⟩ :
        DialogSystem).unanswered = system.unanswered ++ [request] := by
      unfold unanswered
      rw [hpending, List.append_assoc]
    constructor
    · rw [hsame]
      exact hkeeps
    · rw [hsame]
      intro dialog hdialog
      rcases List.mem_append.mp hdialog with hold | hnew
      · exact h.runtime dialog hold
      · rw [List.mem_singleton.mp hnew]
        exact hruntime

/-- An alert about the buffer either leaves the dialogs alone or asks for one. -/
theorem handleStreamBufferAlert_cases (registry : DialogRegistry) (context : ConnectionContext)
    (report : StreamBufferReport) (nowMs : ℕ) :
    ∃ alert : StreamBufferAlertState,
      registry.handleStreamBufferAlert context report nowMs =
          { registry with streamBufferAlertState := alert } ∨
        wantsPopup registry context report ∧
          ∃ before : StreamBufferAlertState,
            registry.handleStreamBufferAlert context report nowMs =
              { (enqueueDialogRequest
                  { registry with streamBufferAlertState := before }
                  { id := nowMs
                    connection := context
                    dedupeKey := nearOverflowKey
                    createdAtMs := nowMs }) with streamBufferAlertState := alert } := by
  unfold handleStreamBufferAlert
  split
  · exact ⟨registry.streamBufferAlertState, Or.inl rfl⟩
  rename_i hreport
  split
  · exact ⟨registry.streamBufferAlertState, Or.inl rfl⟩
  rename_i hnear
  rw [Bool.or_eq_true, decide_eq_true_eq, not_or, Bool.not_eq_true] at hreport
  rw [Bool.not_eq_true, Bool.not_eq_false'] at hnear
  by_cases hother : registry.streamBufferAlertState.connectionId ≠ context.connectionId
  · rw [if_pos hother]
    dsimp only
    split
    · exact ⟨_, Or.inl rfl⟩
    · rename_i henabled
      simp only [Bool.or_eq_true, Bool.not_eq_true', not_or, Bool.not_eq_false] at henabled
      exact ⟨_, Or.inr ⟨⟨hreport.1, hreport.2, hnear, henabled.1.1.1, henabled.1.1.2,
        fun hsame => absurd hsame hother⟩, _, rfl⟩⟩
  · rw [if_neg hother]
    dsimp only
    split
    · exact ⟨registry.streamBufferAlertState, Or.inl rfl⟩
    · rename_i henabled
      simp only [Bool.or_eq_true, Bool.not_eq_true', not_or, Bool.not_eq_false,
        Bool.not_eq_true] at henabled
      exact ⟨_, Or.inr ⟨⟨hreport.1, hreport.2, hnear, henabled.1.1.1, henabled.1.1.2,
        fun _ => ⟨henabled.1.2, henabled.2⟩⟩, registry.streamBufferAlertState, rfl⟩⟩

/-- The dialog that is answered leaves those that are not. -/
theorem perm_answered {position : ℕ} {dialog : DialogRequest}
    (hposition : system.handed[position]? = some dialog) :
    system.unanswered.Perm
      (dialog :: (system.handed.eraseIdx position ++ system.registry.pendingDialogs)) := by
  obtain ⟨hlt, rfl⟩ := List.getElem?_eq_some_iff.mp hposition
  unfold unanswered
  rw [← List.cons_append]
  exact (List.getElem_cons_eraseIdx_perm hlt).symm.append_right _

/-- One step keeps it. -/
theorem Sound.step {event : DialogStep} (h : Sound runtimeGeneration system)
    (hfree : StepFree system event) :
    Sound runtimeGeneration (system.step runtimeGeneration event) := by
  cases event with
  | script refused connection dedupeKey createdAtMs =>
    exact h.enqueue
      (system.scriptRequest runtimeGeneration refused connection dedupeKey createdAtMs) hfree
      (Or.inl rfl) _
  | txOverflow popupOnce nowMs activeConnection =>
    cases popupOnce with
    | true =>
      exact h.enqueue
        { id := nowMs
          connection := activeConnection.getD {}
          dedupeKey := overflowKey
          createdAtMs := nowMs } (hfree rfl) (Or.inr ⟨rfl, Or.inl rfl⟩) _
    | false => exact h
  | streamBufferAlert context report nowMs =>
    obtain ⟨alert, hsame | ⟨hwants, before, hasked⟩⟩ :=
      handleStreamBufferAlert_cases system.registry context report nowMs
    · unfold DialogSystem.step
      dsimp only
      rw [hsame]
      exact h.withAlert alert
    · unfold DialogSystem.step
      dsimp only
      rw [hasked]
      exact ((h.withAlert before).enqueue
        { id := nowMs, connection := context, dedupeKey := nearOverflowKey, createdAtMs := nowMs }
        (hfree hwants) (Or.inr ⟨rfl, Or.inr rfl⟩) system.nextDialogId).withAlert alert
  | resetAlert connectionId =>
    unfold DialogSystem.step resetStreamBufferAlertState
    dsimp only
    split
    · exact h
    · exact h.withAlert {}
  | drain =>
    have hsame : (system.step runtimeGeneration .drain).unanswered = system.unanswered :=
      List.append_nil _
    exact ⟨by rw [hsame]; exact h.keeps.congr rfl rfl (List.Perm.refl _),
      by rw [hsame]; exact h.runtime⟩
  | respond position state =>
    unfold DialogSystem.step
    dsimp only
    cases hposition : system.handed[position]? with
    | none => exact h
    | some dialog =>
      have hperm := perm_answered hposition
      obtain ⟨hkeeps, -, hpending⟩ := h.keeps.respond hperm runtimeGeneration state
      have hsame : (⟨system.registry.respondDialog runtimeGeneration ⟨dialog.id, state, none⟩,
          system.nextDialogId, system.handed.eraseIdx position⟩ : DialogSystem).unanswered =
          system.handed.eraseIdx position ++ system.registry.pendingDialogs := by
        unfold unanswered
        rw [hpending]
      constructor
      · exact hsame ▸ hkeeps
      · rw [hsame]
        exact fun other hother => h.runtime other
          (hperm.mem_iff.mpr (List.mem_cons_of_mem _ hother))

/-- Every run keeps it. -/
theorem Sound.run {steps : List DialogStep} (h : Sound runtimeGeneration system)
    (hfree : RunFree runtimeGeneration system steps) :
    Sound runtimeGeneration (steps.foldl (DialogSystem.step runtimeGeneration) system) := by
  induction steps generalizing system with
  | nil => exact h
  | cons event steps ih => exact ih (h.step hfree.1) hfree.2

/-- **As long as every dialog that is accepted finds its number free, the blocked keys are at all
times those of the dialogs that are not answered, and each dialog on the screen is answered once,
to its own connection and with its key freed; the answer reaches the callback if the dialog is for
the runtime that is loaded, as those of the script are.** -/
theorem dialogs_answered (runtimeGeneration : ℕ) (steps : List DialogStep)
    (hfree : RunFree runtimeGeneration {} steps) :
    (∀ key, (DialogSystem.run runtimeGeneration steps).registry.blocks key = true ↔
      key ≠ "" ∧ ∃ dialog ∈ (DialogSystem.run runtimeGeneration steps).unanswered,
        dialog.dedupeKey = key) ∧
    (∀ dialog ∈ (DialogSystem.run runtimeGeneration steps).unanswered,
      OfRuntime runtimeGeneration dialog) ∧
    ∀ position dialog state,
      (DialogSystem.run runtimeGeneration steps).handed[position]? = some dialog →
        Answered runtimeGeneration (DialogSystem.run runtimeGeneration steps).registry
          (DialogSystem.run runtimeGeneration (steps ++ [.respond position state])).registry
          dialog state ∧
        (DialogSystem.run runtimeGeneration steps).unanswered.Perm
          (dialog ::
            (DialogSystem.run runtimeGeneration (steps ++ [.respond position state])).unanswered) := by
  have hsound : Sound runtimeGeneration (DialogSystem.run runtimeGeneration steps) :=
    Sound.empty.run hfree
  refine ⟨fun key => hsound.keeps.blocks_iff, hsound.runtime, ?_⟩
  intro position dialog state hposition
  have hnext : DialogSystem.run runtimeGeneration (steps ++ [.respond position state]) =
      ⟨(DialogSystem.run runtimeGeneration steps).registry.respondDialog runtimeGeneration
          ⟨dialog.id, state, none⟩,
        (DialogSystem.run runtimeGeneration steps).nextDialogId,
        (DialogSystem.run runtimeGeneration steps).handed.eraseIdx position⟩ := by
    unfold DialogSystem.run at hposition ⊢
    rw [List.foldl_append, List.foldl_cons, List.foldl_nil, DialogSystem.step, hposition]
  have hperm := perm_answered hposition
  obtain ⟨-, hanswered, hpending⟩ := hsound.keeps.respond hperm runtimeGeneration state
  rw [hnext]
  refine ⟨hanswered, ?_⟩
  unfold DialogSystem.unanswered at hperm ⊢
  rw [hpending]
  exact hperm

end Runs

/-- A dialog of the script and an overflow a millisecond apart from its number. -/
theorem dialogs_answered_two :
    RunFree 3 {} [.script 0 { connectionId := 4 } "ask" 10, .txOverflow true 12 none, .drain] ∧
      (DialogSystem.run 3 [.script 0 { connectionId := 4 } "ask" 10, .txOverflow true 12 none,
        .drain]).registry.blocks "ask" = true := by
  have hfree : RunFree 3 {}
      [.script 0 { connectionId := 4 } "ask" 10, .txOverflow true 12 none, .drain] :=
    ⟨fun _ => List.not_mem_nil, fun _ _ => by decide, trivial, trivial⟩
  exact ⟨hfree, ((dialogs_answered 3 _ hfree).1 "ask").mpr ⟨by decide,
    ⟨1, { connectionId := 4 }, "ask", 10, 3⟩, by decide, rfl⟩⟩

/-- Two dialogs of the application in one millisecond: the first loses its place, its answer goes
to the connection of the second, and its key stays blocked with no dialog left to answer. -/
theorem overflow_stays_blocked :
    let steps : List DialogStep :=
      [.txOverflow true 5 none,
        .streamBufferAlert { connectionId := 1 } ⟨100, false, true, true, true⟩ 5, .drain,
        .respond 0 "closed", .respond 0 "closed"]
    (DialogSystem.run 3 steps).unanswered = [] ∧
      (DialogSystem.run 3 steps).registry.blocks overflowKey = true ∧
      (DialogSystem.run 3 steps).registry.posted =
        [({ connectionId := 1 }, ⟨5, "closed", some 0⟩)] ∧
      callsOnDialog 3 ⟨5, "closed", some 0⟩ = false := by
  decide

end ProtoScope.App
