/-
An update of control properties is all or nothing, and its order does not matter.

A patch reads and writes only the control with its id, so patches of different controls can change
places; a table has each key once.  An update that goes through gives every patched control the
properties of its patch and nothing else, in the list and in the docks, exactly if the first
control with an id stands for all that have it: the list is searched from the front, and the docks
get what is found.
-/
import Mathlib.Data.List.Nodup
import ProtoScope.Data.Model
import ProtoScope.Scripting.ControlProperties

namespace ProtoScope.Scripting

open ProtoScope.Data (bind_eq_ok)
open LuaValue

/-! ### What a patch says -/

namespace LuaValue

def textOr (old : String) : LuaValue → String
  | .string text => text
  | _ => old

def booleanOr (old : Bool) : LuaValue → Bool
  | .boolean value => value
  | _ => old

def lengthOr (old : ℕ) : LuaValue → ℕ
  | .number length => length.asInt.toNat
  | _ => old

/-- `false` takes the bound away. -/
def boundOr (old : Option Float) : LuaValue → Option Float
  | .boolean false => none
  | .number bound => some bound.asDouble
  | _ => old

def optionsOr (old : List String) : LuaValue → List String
  | .table options => (comboOptionsOf options).toOption.getD old
  | _ => old

end LuaValue

/-- The control with the properties that the patch names, all others as they were. -/
def ControlDescriptor.patched (control : ControlDescriptor) (patch : LuaTable) :
    ControlDescriptor :=
  { control with
    label := (patch.get "label").textOr control.label
    tooltip := (patch.get "tooltip").textOr control.tooltip
    visible := (patch.get "visible").booleanOr control.visible
    disabled := (patch.get "disabled").booleanOr control.disabled
    readOnly := (patch.get "read_only").booleanOr control.readOnly
    wrap := (patch.get "wrap").booleanOr control.wrap
    indeterminate := (patch.get "indeterminate").booleanOr control.indeterminate
    maxLength := (patch.get "max_length").lengthOr control.maxLength
    minimum := (patch.get "min").boundOr control.minimum
    maximum := (patch.get "max").boundOr control.maximum
    comboOptions := (patch.get "options").optionsOr control.comboOptions }

section Properties

variable {patch : LuaTable} {key : String} {type : ControlType}

theorem textProperty_ok {old new : String} (h : textProperty patch key old = .ok new) :
    new = (patch.get key).textOr old := by
  unfold textProperty at h
  split at h
  · rename_i hget
    rw [hget]
    cases h
    rfl
  · rename_i hget
    rw [hget]
    split at h
    · cases h
    · cases h
      rfl
  · cases h

theorem booleanProperty_ok {old new : Bool} (h : booleanProperty patch key old = .ok new) :
    new = (patch.get key).booleanOr old := by
  unfold booleanProperty at h
  split at h
  · rename_i hget
    rw [hget]
    cases h
    rfl
  · rename_i hget
    rw [hget]
    cases h
    rfl
  · cases h

theorem lengthProperty_ok {old new : ℕ} (h : lengthProperty patch type old = .ok new) :
    new = (patch.get "max_length").lengthOr old := by
  unfold lengthProperty at h
  split at h
  · rename_i hget
    rw [hget]
    cases h
    rfl
  · rename_i hget
    rw [hget]
    split at h
    · cases h
    · cases h
      rfl
  · cases h

theorem boundProperty_ok {old new : Option Float} (h : boundProperty patch key type old = .ok new) :
    new = (patch.get key).boundOr old := by
  unfold boundProperty at h
  split at h
  · rename_i hget
    rw [hget]
    cases h
    rfl
  · dsimp only at h
    split at h
    · cases h
    split at h
    · rename_i hget
      rw [hget]
      cases h
      rfl
    · rename_i hget
      rw [hget]
      split at h
      · cases h
      split at h
      · cases h
      · cases h
        rfl
    · cases h

theorem optionsProperty_ok {old new : List String}
    (h : optionsProperty true patch type old = .ok new) :
    new = (patch.get "options").optionsOr old := by
  unfold optionsProperty at h
  rw [if_neg (by decide)] at h
  split at h
  · rename_i hget
    rw [hget]
    cases h
    rfl
  · rename_i hget
    rw [hget]
    split at h
    · cases h
    · show new = (comboOptionsOf _).toOption.getD old
      rw [h]
      rfl
  · cases h

/-- **A patch that is applied gives the properties it names and no others.** -/
theorem applyControlProperties_ok {control control' : ControlDescriptor}
    (h : applyControlProperties control patch true = .ok control') :
    control' = control.patched patch := by
  unfold applyControlProperties at h
  obtain ⟨-, -, h⟩ := bind_eq_ok.mp h
  obtain ⟨label, hlabel, h⟩ := bind_eq_ok.mp h
  obtain ⟨tooltip, htooltip, h⟩ := bind_eq_ok.mp h
  obtain ⟨visible, hvisible, h⟩ := bind_eq_ok.mp h
  obtain ⟨disabled, hdisabled, h⟩ := bind_eq_ok.mp h
  obtain ⟨readOnly, hreadOnly, h⟩ := bind_eq_ok.mp h
  obtain ⟨wrap, hwrap, h⟩ := bind_eq_ok.mp h
  obtain ⟨indeterminate, hindeterminate, h⟩ := bind_eq_ok.mp h
  obtain ⟨maxLength, hmaxLength, h⟩ := bind_eq_ok.mp h
  obtain ⟨minimum, hminimum, h⟩ := bind_eq_ok.mp h
  obtain ⟨maximum, hmaximum, h⟩ := bind_eq_ok.mp h
  obtain ⟨-, -, h⟩ := bind_eq_ok.mp h
  obtain ⟨comboOptions, hoptions, h⟩ := bind_eq_ok.mp h
  unfold ControlDescriptor.patched
  rw [← textProperty_ok hlabel, ← textProperty_ok htooltip, ← booleanProperty_ok hvisible,
    ← booleanProperty_ok hdisabled, ← booleanProperty_ok hreadOnly, ← booleanProperty_ok hwrap,
    ← booleanProperty_ok hindeterminate, ← lengthProperty_ok hmaxLength,
    ← boundProperty_ok hminimum, ← boundProperty_ok hmaximum, ← optionsProperty_ok hoptions]
  cases h
  rfl

end Properties

/-! ### The control with an id -/

section Lists

variable {controls : List ControlDescriptor} {control found : ControlDescriptor} {id other : String}

theorem findControlDescriptor_id (h : findControlDescriptor controls id = some found) :
    found.id = id := by
  have hfound := List.find?_some h
  exact of_decide_eq_true hfound

theorem findControlDescriptor_cons (id : String) (control : ControlDescriptor)
    (controls : List ControlDescriptor) :
    findControlDescriptor (control :: controls) id =
      if control.id = id then some control else findControlDescriptor controls id := by
  unfold findControlDescriptor
  rw [List.find?_cons]
  by_cases h : control.id = id
  · rw [if_pos h, decide_eq_true h]
  · rw [if_neg h, decide_eq_false h]

theorem find_replaceControl_ne (hid : control.id = id) (hne : other ≠ id) :
    findControlDescriptor (replaceControl id control controls) other =
      findControlDescriptor controls other := by
  induction controls with
  | nil => rfl
  | cons first controls ih =>
    unfold replaceControl
    split
    · rename_i hfirst
      rw [findControlDescriptor_cons, findControlDescriptor_cons, hid, hfirst]
      rw [if_neg hne.symm, if_neg hne.symm]
    · rw [findControlDescriptor_cons, findControlDescriptor_cons, ih]

theorem replaceControl_comm {control' : ControlDescriptor} (hid : control.id = id)
    (hother : control'.id = other) (hne : other ≠ id) :
    replaceControl other control' (replaceControl id control controls) =
      replaceControl id control (replaceControl other control' controls) := by
  induction controls with
  | nil => rfl
  | cons first controls ih =>
    by_cases hfirst : first.id = id
    · simp only [replaceControl, hfirst, hid, hne.symm, if_true, if_false]
    · by_cases hfirst' : first.id = other
      · simp only [replaceControl, hfirst', hother, hne, if_true, if_false]
      · simp only [replaceControl, hfirst, hfirst', if_false, ih]

end Lists

/-! ### One patch -/

section One

variable {readers : ControlReaders} {patch : LuaTable} {control : ControlDescriptor}
  {current : Option ControlValue} {patched : ControlDescriptor × Option ControlValue}

/-- What a patch that goes through makes of its control. -/
theorem patchControl_ok (h : patchControl readers control patch current = .ok patched) :
    patched.1 = control.patched patch ∧
      namedValue readers (control.patched patch) patch current = .ok patched.2 ∧
      ∃ value, patched.2.or current = some value ∧
        validateControlValue (control.patched patch) value = true := by
  unfold patchControl at h
  obtain ⟨control', happlied, h⟩ := bind_eq_ok.mp h
  rw [applyControlProperties_ok happlied] at h
  obtain ⟨value, hvalue, h⟩ := bind_eq_ok.mp h
  obtain ⟨_, hchecked, h⟩ := bind_eq_ok.mp h
  cases h
  refine ⟨rfl, hvalue, ?_⟩
  unfold checkValue at hchecked
  split at hchecked
  · cases hchecked
  · rename_i result hresult
    split at hchecked
    · rename_i hvalid
      exact ⟨result, hresult, hvalid⟩
    · cases hchecked

end One

/-! ### The order of the patches -/

section Order

variable {readers : ControlReaders} {now : String → ℕ}

/-- A round of the loop, with the text of an error left out. -/
def round (readers : ControlReaders) (now : String → ℕ) (state : Option ControlCopies)
    (entry : LuaValue × LuaValue) : Option ControlCopies :=
  state.bind fun copies =>
    match entry with
    | (.string id, .table patch) => (copies.patch readers id (now id) patch).toOption
    | _ => none

theorem patch_eq_some {copies copies' : ControlCopies} {id : String} {nowMs : ℕ}
    {patch : LuaTable} :
    (copies.patch readers id nowMs patch).toOption = some copies' ↔
      ∃ control patched, findControlDescriptor copies.controls id = some control ∧
        patchControl readers control patch (copies.values id) = .ok patched ∧
        patched.1.id = id ∧ copies.put id nowMs patched = copies' := by
  unfold ControlCopies.patch
  cases hfound : findControlDescriptor copies.controls id with
  | none =>
    constructor
    · intro h
      cases h
    · rintro ⟨control, patched, h, -⟩
      cases h
  | some control =>
    dsimp only
    cases hpatched : patchControl readers control patch (copies.values id) with
    | error message =>
      constructor
      · intro h
        cases h
      · rintro ⟨_, patched, h, h', -⟩
        cases h
        rw [hpatched] at h'
        cases h'
    | ok patched =>
      have hid : patched.1.id = id := by
        rw [(patchControl_ok hpatched).1]
        exact (findControlDescriptor_id hfound : control.id = id)
      constructor
      · intro h
        cases h
        exact ⟨control, patched, rfl, hpatched, hid, rfl⟩
      · rintro ⟨_, patched', h, h', -, rfl⟩
        cases h
        rw [hpatched] at h'
        cases h'
        rfl

section Put

variable {copies : ControlCopies} {id other : String} {nowMs nowMs' : ℕ}
  {patched patched' : ControlDescriptor × Option ControlValue}

theorem put_values_ne (hne : other ≠ id) :
    (copies.put id nowMs patched).values other = copies.values other := by
  unfold ControlCopies.put
  cases patched.2 with
  | none => rfl
  | some value => exact Function.update_of_ne hne _ _

theorem put_timestamps_ne (hne : other ≠ id) :
    (copies.put id nowMs patched).timestamps other = copies.timestamps other := by
  unfold ControlCopies.put
  cases patched.2 with
  | none => rfl
  | some value => exact Function.update_of_ne hne _ _

theorem put_comm (hid : patched.1.id = id) (hother : patched'.1.id = other) (hne : other ≠ id) :
    (copies.put id nowMs patched).put other nowMs' patched' =
      (copies.put other nowMs' patched').put id nowMs patched := by
  unfold ControlCopies.put
  congr 1
  · exact replaceControl_comm hid hother hne
  · cases patched.2 with
    | none => rfl
    | some value =>
      cases patched'.2 with
      | none => rfl
      | some value' => exact Function.update_comm hne.symm _ _ _
  · cases patched.2 with
    | none => rfl
    | some value =>
      cases patched'.2 with
      | none => rfl
      | some value' => exact Function.update_comm hne.symm _ _ _

end Put

/-- A patch goes through after that of another control as before it. -/
theorem patch_swap {copies first second : ControlCopies} {id other : String} {nowMs nowMs' : ℕ}
    {patch patch' : LuaTable} (hne : other ≠ id)
    (hfirst : (copies.patch readers id nowMs patch).toOption = some first)
    (hsecond : (first.patch readers other nowMs' patch').toOption = some second) :
    ∃ first', (copies.patch readers other nowMs' patch').toOption = some first' ∧
      (first'.patch readers id nowMs patch).toOption = some second := by
  obtain ⟨control, patched, hfound, hpatched, hid, rfl⟩ := patch_eq_some.mp hfirst
  obtain ⟨control', patched', hfound', hpatched', hother, rfl⟩ := patch_eq_some.mp hsecond
  replace hfound' : findControlDescriptor copies.controls other = some control' :=
    (find_replaceControl_ne hid hne).symm.trans hfound'
  rw [put_values_ne hne] at hpatched'
  refine ⟨copies.put other nowMs' patched',
    patch_eq_some.mpr ⟨control', patched', hfound', hpatched', hother, rfl⟩,
    patch_eq_some.mpr ⟨control, patched, ?_, ?_, hid, (put_comm hid hother hne).symm⟩⟩
  · exact (find_replaceControl_ne hother hne.symm).trans hfound
  · rw [put_values_ne hne.symm]
    exact hpatched

theorem round_eq_some {copies copies' : ControlCopies} {entry : LuaValue × LuaValue} :
    round readers now (some copies) entry = some copies' ↔
      ∃ id patch, entry = (.string id, .table patch) ∧
        (copies.patch readers id (now id) patch).toOption = some copies' := by
  obtain ⟨key, item⟩ := entry
  constructor
  · intro h
    unfold round at h
    rw [Option.bind_some] at h
    split at h
    · rename_i id patch heq
      exact ⟨id, patch, heq, h⟩
    · cases h
  · rintro ⟨id, patch, heq, h⟩
    rw [heq]
    exact h

/-- **Rounds for two keys can change places.** -/
theorem round_comm {first second : LuaValue × LuaValue} (hne : first.1 ≠ second.1)
    (state : Option ControlCopies) :
    round readers now (round readers now state first) second =
      round readers now (round readers now state second) first := by
  have hone : ∀ {first second : LuaValue × LuaValue}, first.1 ≠ second.1 →
      ∀ copies result,
        round readers now (round readers now (some copies) first) second = some result →
        round readers now (round readers now (some copies) second) first = some result := by
    intro first second hne copies result h
    obtain ⟨middle, hmiddle, -⟩ := Option.bind_eq_some_iff.mp h
    rw [hmiddle] at h
    obtain ⟨id, patch, rfl, hfirst⟩ := round_eq_some.mp hmiddle
    obtain ⟨other, patch', rfl, hsecond⟩ := round_eq_some.mp h
    have hother : other ≠ id := fun heq => hne (by rw [heq])
    obtain ⟨middle', hmiddle', hresult⟩ := patch_swap hother hfirst hsecond
    rw [round_eq_some.mpr ⟨other, patch', rfl, hmiddle'⟩]
    exact round_eq_some.mpr ⟨id, patch, rfl, hresult⟩
  cases state with
  | none => rfl
  | some copies =>
    exact Option.ext fun result => ⟨hone hne copies result, hone hne.symm copies result⟩

theorem foldl_round_none (patches : LuaTable) : patches.foldl (round readers now) none = none := by
  induction patches with
  | nil => rfl
  | cons entry patches ih => exact ih

/-- The loop is its rounds, with at most 4096 of them. -/
theorem patchControls_toOption (patches : LuaTable) {count : ℕ} (hcount : count ≤ 4096)
    (copies : ControlCopies) :
    (patchControls readers now patches count copies).toOption =
      if count + patches.length ≤ 4096 then patches.foldl (round readers now) (some copies)
      else none := by
  induction patches generalizing count copies with
  | nil => exact (if_pos hcount).symm
  | cons entry patches ih =>
    obtain ⟨key, item⟩ := entry
    unfold patchControls
    rw [List.foldl_cons, List.length_cons]
    split
    · rename_i id patch
      split
      · rename_i hlarge
        rw [if_neg (by omega)]
        rfl
      · rename_i hsmall
        have hround : round readers now (some copies) (.string id, .table patch) =
            (copies.patch readers id (now id) patch).toOption := rfl
        rw [hround]
        cases hpatch : copies.patch readers id (now id) patch with
        | error message =>
          show none = if _ then patches.foldl (round readers now) none else none
          rw [foldl_round_none, ite_self]
        | ok copies' =>
          show (patchControls readers now patches (count + 1) copies').toOption = _
          rw [ih (by omega)]
          have hsum : count + 1 + patches.length = count + (patches.length + 1) := by omega
          rw [hsum]
          rfl
    · rename_i hother
      have hround : round readers now (some copies) (key, item) = none := by
        unfold round
        rw [Option.bind_some]
        split
        · rename_i id patch heq
          cases heq
          exact (hother id patch rfl rfl).elim
        · rfl
      rw [hround, foldl_round_none, ite_self]
      rfl

/-- The result of the loop does not depend on the order of the table. -/
theorem patchControls_perm {patches patches' : LuaTable} (hperm : patches.Perm patches')
    (hkeys : (patches.map (·.1)).Nodup) (copies : ControlCopies) :
    (patchControls readers now patches 0 copies).toOption =
      (patchControls readers now patches' 0 copies).toOption := by
  rw [patchControls_toOption patches (Nat.zero_le _), patchControls_toOption patches' (Nat.zero_le _),
    hperm.length_eq]
  congr 1
  apply hperm.foldl_eq'
  intro first hfirst second hsecond state
  by_cases hsame : first = second
  · rw [hsame]
  · have hne : first.1 ≠ second.1 := fun heq =>
      hsame (List.inj_on_of_nodup_map hkeys hfirst hsecond heq)
    exact round_comm hne state

end Order

/-! ### What an update leaves -/

/-- The patch of a table for an id. -/
def patchFor (patches : LuaTable) (id : String) : Option LuaTable :=
  match patches.get id with
  | .table patch => some patch
  | _ => none

def ControlDescriptor.patchedBy (patches : LuaTable) (control : ControlDescriptor) :
    ControlDescriptor :=
  (patchFor patches control.id).elim control control.patched

/-- The first control with an id gets its patch. -/
def firstPatched (patches : LuaTable) : List String → List ControlDescriptor →
    List ControlDescriptor
  | _, [] => []
  | seen, control :: controls =>
    (if control.id ∈ seen then control else control.patchedBy patches) ::
      firstPatched patches (control.id :: seen) controls

section Lists

variable {patches : LuaTable} {id : String} {patch : LuaTable}

theorem patchedBy_id (patches : LuaTable) (control : ControlDescriptor) :
    (control.patchedBy patches).id = control.id := by
  unfold ControlDescriptor.patchedBy
  cases patchFor patches control.id <;> rfl

theorem get_cons_self (item : LuaValue) (table : LuaTable) :
    LuaTable.get ((.string id, item) :: table) id = item := by
  unfold LuaTable.get
  rw [List.find?_cons, show (string id).isText id = true from decide_eq_true rfl]
  rfl

theorem get_cons_ne {other : String} (hne : other ≠ id) (item : LuaValue) (table : LuaTable) :
    LuaTable.get ((.string other, item) :: table) id = table.get id := by
  unfold LuaTable.get
  rw [List.find?_cons, show (string other).isText id = false from decide_eq_false hne]

theorem get_of_not_mem {table : LuaTable} (h : string id ∉ table.map (·.1)) :
    table.get id = .nil := by
  unfold LuaTable.get
  rw [List.find?_eq_none.mpr]
  · rfl
  · intro entry hentry htext
    obtain ⟨key, item⟩ := entry
    cases key with
    | string text =>
      have heq : text = id := of_decide_eq_true htext
      exact h (List.mem_map.mpr ⟨_, hentry, congrArg string heq⟩)
    | _ => cases htext

/-- The entry of a table under a key. -/
theorem get_of_mem {table : LuaTable} (hkeys : (table.map (·.1)).Nodup) {item : LuaValue}
    (h : (string id, item) ∈ table) : table.get id = item := by
  induction table with
  | nil => exact (List.not_mem_nil h).elim
  | cons entry table ih =>
    obtain ⟨key, value⟩ := entry
    obtain ⟨hnot, hrest⟩ := List.nodup_cons.mp (show (key :: table.map (·.1)).Nodup from hkeys)
    rcases List.mem_cons.mp h with heq | hmem
    · cases heq
      exact get_cons_self _ _
    · have hkey : key ≠ .string id := by
        rintro rfl
        exact hnot (List.mem_map.mpr ⟨_, hmem, rfl⟩)
      have hskip : LuaTable.get ((key, value) :: table) id = LuaTable.get table id := by
        cases key with
        | string other => exact get_cons_ne (fun heq => hkey (congrArg string heq)) _ _
        | _ => rfl
      rw [hskip]
      exact ih hrest hmem

theorem patchedBy_of_not_mem {control : ControlDescriptor}
    (h : string control.id ∉ patches.map (·.1)) : control.patchedBy patches = control := by
  unfold ControlDescriptor.patchedBy patchFor
  rw [get_of_not_mem h]
  rfl

theorem patchedBy_cons (control : ControlDescriptor) :
    control.patchedBy ((.string id, .table patch) :: patches) =
      if control.id = id then control.patched patch else control.patchedBy patches := by
  unfold ControlDescriptor.patchedBy patchFor
  by_cases h : control.id = id
  · rw [if_pos h, h, get_cons_self]
    rfl
  · rw [if_neg h, get_cons_ne (Ne.symm h)]

theorem firstPatched_nil (seen : List String) (controls : List ControlDescriptor) :
    firstPatched [] seen controls = controls := by
  induction controls generalizing seen with
  | nil => rfl
  | cons control controls ih =>
    unfold firstPatched
    rw [ih, patchedBy_of_not_mem List.not_mem_nil, ite_self]

/-- A patch of an id that was seen does nothing. -/
theorem firstPatched_cons_seen {seen : List String} (hseen : id ∈ seen)
    (controls : List ControlDescriptor) :
    firstPatched ((.string id, .table patch) :: patches) seen controls =
      firstPatched patches seen controls := by
  induction controls generalizing seen with
  | nil => rfl
  | cons control controls ih =>
    unfold firstPatched
    rw [ih (List.mem_cons_of_mem _ hseen)]
    congr 1
    split
    · rfl
    · rename_i hnot
      have hne : control.id ≠ id := fun heq => hnot (by rw [heq]; exact hseen)
      rw [patchedBy_cons, if_neg hne]

/-- A patch for the first control with its id comes before the others. -/
theorem firstPatched_cons {seen : List String} {controls : List ControlDescriptor}
    {found : ControlDescriptor} (hnot : string id ∉ patches.map (·.1))
    (hseen : id ∉ seen) (hfound : findControlDescriptor controls id = some found) :
    firstPatched ((.string id, .table patch) :: patches) seen controls =
      firstPatched patches seen (replaceControl id (found.patched patch) controls) := by
  induction controls generalizing seen with
  | nil => cases hfound
  | cons control controls ih =>
    rw [findControlDescriptor_cons] at hfound
    unfold replaceControl
    split at hfound
    · rename_i hid
      rw [← Option.some.inj hfound]
      have hkept : (control.patched patch).patchedBy patches = control.patched patch :=
        patchedBy_of_not_mem (by rw [show (control.patched patch).id = id from hid]; exact hnot)
      rw [if_pos hid]
      unfold firstPatched
      rw [show (control.patched patch).id = id from hid, hid, if_neg hseen, if_neg hseen, hkept,
        patchedBy_cons, if_pos hid, firstPatched_cons_seen List.mem_cons_self]
    · rename_i hid
      rw [if_neg hid]
      unfold firstPatched
      rw [ih (List.not_mem_cons_of_ne_of_not_mem (Ne.symm hid) hseen) hfound, patchedBy_cons, if_neg hid]

/-- What is found is patched. -/
theorem find_firstPatched {seen : List String} (hseen : id ∉ seen)
    (controls : List ControlDescriptor) :
    findControlDescriptor (firstPatched patches seen controls) id =
      (findControlDescriptor controls id).map (·.patchedBy patches) := by
  induction controls generalizing seen with
  | nil => rfl
  | cons control controls ih =>
    unfold firstPatched
    rw [findControlDescriptor_cons, findControlDescriptor_cons]
    by_cases hid : control.id = id
    · rw [if_neg (show control.id ∉ seen by rw [hid]; exact hseen), patchedBy_id, if_pos hid,
        if_pos hid]
      rfl
    · have hhead : (if control.id ∈ seen then control else control.patchedBy patches).id =
          control.id := by
        split
        · rfl
        · exact patchedBy_id _ _
      rw [hhead, if_neg hid, if_neg hid, ih (List.not_mem_cons_of_ne_of_not_mem (Ne.symm hid) hseen)]

/-- All controls are patched if the later ones with an id are as their patch would leave them. -/
theorem firstPatched_eq_map {seen : List String} {controls : List ControlDescriptor} :
    firstPatched patches seen controls = controls.map (·.patchedBy patches) ↔
      (∀ control ∈ controls, control.id ∈ seen → control.patchedBy patches = control) ∧
        controls.Pairwise fun first second =>
          first.id = second.id → second.patchedBy patches = second := by
  induction controls generalizing seen with
  | nil => exact ⟨fun _ => ⟨fun _ h => (List.not_mem_nil h).elim, List.Pairwise.nil⟩, fun _ => rfl⟩
  | cons control controls ih =>
    unfold firstPatched
    rw [List.map_cons, List.cons.injEq, ih, List.pairwise_cons]
    constructor
    · rintro ⟨hhead, htail, hpairs⟩
      refine ⟨fun other hother hmem => ?_, fun other hother hsame => ?_, hpairs⟩
      · rcases List.mem_cons.mp hother with rfl | hother
        · rw [if_pos hmem] at hhead
          exact hhead.symm
        · exact htail other hother (List.mem_cons_of_mem _ hmem)
      · exact htail other hother (by rw [← hsame]; exact List.mem_cons_self)
    · rintro ⟨hseen, hfirst, hpairs⟩
      refine ⟨?_, fun other hother hmem => ?_, hpairs⟩
      · split
        · rename_i hmem
          exact (hseen control List.mem_cons_self hmem).symm
        · rfl
      · rcases List.mem_cons.mp hmem with hsame | hmem
        · exact hfirst other hother hsame.symm
        · exact hseen other (List.mem_cons_of_mem _ hother) hmem

end Lists

/-! ### An update that goes through -/

section Update

variable {readers : ControlReaders} {now : String → ℕ} {patches : LuaTable}
  {copies copies' : ControlCopies}

/-- What a loop that goes through leaves in the copies. -/
structure Patched (readers : ControlReaders) (now : String → ℕ) (patches : LuaTable)
    (copies copies' : ControlCopies) : Prop where
  controls : copies'.controls = firstPatched patches [] copies.controls
  others : ∀ id, string id ∉ patches.map (·.1) →
    copies'.values id = copies.values id ∧ copies'.timestamps id = copies.timestamps id
  own : ∀ key item, (key, item) ∈ patches → ∃ id patch control patched,
    key = .string id ∧ item = .table patch ∧
      findControlDescriptor copies.controls id = some control ∧
      patchControl readers control patch (copies.values id) = .ok patched ∧
      copies'.values id = patched.2.or (copies.values id) ∧
      copies'.timestamps id = patched.2.elim (copies.timestamps id) fun _ => some (now id)

theorem put_values_self (copies : ControlCopies) (id : String) (nowMs : ℕ)
    (patched : ControlDescriptor × Option ControlValue) :
    (copies.put id nowMs patched).values id = patched.2.or (copies.values id) := by
  unfold ControlCopies.put
  cases patched.2 with
  | none => rfl
  | some value => exact Function.update_self _ _ _

theorem put_timestamps_self (copies : ControlCopies) (id : String) (nowMs : ℕ)
    (patched : ControlDescriptor × Option ControlValue) :
    (copies.put id nowMs patched).timestamps id =
      patched.2.elim (copies.timestamps id) fun _ => some nowMs := by
  unfold ControlCopies.put
  cases patched.2 with
  | none => rfl
  | some value => exact Function.update_self _ _ _

/-- One round more at the front. -/
theorem Patched.cons {id : String} {patch : LuaTable} {control : ControlDescriptor}
    {patched : ControlDescriptor × Option ControlValue}
    (hnot : string id ∉ patches.map (·.1))
    (hfound : findControlDescriptor copies.controls id = some control)
    (hpatched : patchControl readers control patch (copies.values id) = .ok patched)
    (h : Patched readers now patches (copies.put id (now id) patched) copies') :
    Patched readers now ((.string id, .table patch) :: patches) copies copies' := by
  obtain ⟨hcontrols, hothers, hown⟩ := h
  have hdescriptor := (patchControl_ok hpatched).1
  have hid : patched.1.id = id := by
    rw [hdescriptor]
    exact (findControlDescriptor_id hfound : control.id = id)
  refine ⟨?_, fun other hother => ?_, fun key item hentry => ?_⟩
  · rw [hcontrols, firstPatched_cons hnot List.not_mem_nil hfound, ← hdescriptor]
    rfl
  · have hne' : other ≠ id := fun heq =>
      List.ne_of_not_mem_cons hother (congrArg string heq)
    obtain ⟨hvalues, htimestamps⟩ := hothers other (List.not_mem_of_not_mem_cons hother)
    exact ⟨hvalues.trans (put_values_ne hne'), htimestamps.trans (put_timestamps_ne hne')⟩
  · rcases List.mem_cons.mp hentry with heq | hmem
    · cases heq
      obtain ⟨hvalues, htimestamps⟩ := hothers id hnot
      exact ⟨id, patch, control, patched, rfl, rfl, hfound, hpatched,
        hvalues.trans (put_values_self _ _ _ _), htimestamps.trans (put_timestamps_self _ _ _ _)⟩
    · obtain ⟨other, patch', control', patched', rfl, rfl, hfound', hpatched', hvalues,
        htimestamps⟩ := hown key item hmem
      have hne : other ≠ id := by
        rintro rfl
        exact hnot (List.mem_map.mpr ⟨(_, _), hmem, rfl⟩)
      rw [put_values_ne hne] at hpatched' hvalues
      rw [put_timestamps_ne hne] at htimestamps
      exact ⟨other, patch', control', patched', rfl, rfl,
        (find_replaceControl_ne hid hne).symm.trans hfound', hpatched', hvalues, htimestamps⟩

/-- What the loop leaves, by induction over the table. -/
theorem patched_of_foldl (hkeys : (patches.map (·.1)).Nodup)
    (h : patches.foldl (round readers now) (some copies) = some copies') :
    Patched readers now patches copies copies' := by
  induction patches generalizing copies with
  | nil =>
    cases h
    exact ⟨(firstPatched_nil _ _).symm, fun _ _ => ⟨rfl, rfl⟩,
      fun _ _ hentry => (List.not_mem_nil hentry).elim⟩
  | cons entry patches ih =>
    obtain ⟨hnot, hrest⟩ := List.nodup_cons.mp
      (show (entry.1 :: patches.map (·.1)).Nodup from hkeys)
    rw [List.foldl_cons] at h
    cases hround : round readers now (some copies) entry with
    | none =>
      rw [hround] at h
      rw [foldl_round_none] at h
      cases h
    | some middle =>
      rw [hround] at h
      obtain ⟨id, patch, rfl, hpatch⟩ := round_eq_some.mp hround
      obtain ⟨control, patched, hfound, hpatched, -, rfl⟩ := patch_eq_some.mp hpatch
      exact (ih hrest h).cons hnot hfound hpatched

/-- **What a successful update leaves in the host.** -/
structure Updated (readers : ControlReaders) (now : String → ℕ) (patches : LuaTable)
    (host host' : ControlHost) : Prop where
  /-- every patched control has the properties of its patch, the others are unchanged -/
  controls : host'.controls = host.controls.map (·.patchedBy patches)
  docks : host'.docks = host.docks.map fun dock => dock.map (·.patchedBy patches)
  /-- a dock's copy is the control of the list -/
  copies : ∀ dock ∈ host'.docks, ∀ copy ∈ dock,
    findControlDescriptor host'.controls copy.id = some copy
  loaded : host'.scriptLoaded = host.scriptLoaded
  others : ∀ id, string id ∉ patches.map (·.1) →
    host'.controlValues id = host.controlValues id ∧
      host'.controlUpdatedAtMs id = host.controlUpdatedAtMs id
  /-- a patch without a value leaves it, one with a value sets it, and it is valid then -/
  values : ∀ id patch, (string id, table patch) ∈ patches →
    ∃ control value new, findControlDescriptor host'.controls id = some control ∧
      namedValue readers control patch (host.controlValues id) = .ok new ∧
      host'.controlValues id = some value ∧ new.or (host.controlValues id) = some value ∧
      host'.controlUpdatedAtMs id =
        new.elim (host.controlUpdatedAtMs id) (fun _ => some (now id)) ∧
      validateControlValue control value = true

/-- The first control with an id stands for all that have it, as far as the patches go. -/
structure Consistent (patches : LuaTable) (host : ControlHost) : Prop where
  repeats : host.controls.Pairwise fun first second =>
    first.id = second.id → second.patchedBy patches = second
  copies : ∀ dock ∈ host.docks, ∀ copy ∈ dock, ∃ control,
    findControlDescriptor host.controls copy.id = some control ∧
      control.patchedBy patches = copy.patchedBy patches

/-- Distinct ids and docks that hold the controls of the list are enough. -/
theorem Consistent.of_distinct {host : ControlHost} (hids : (host.controls.map (·.id)).Nodup)
    (hcopies : ∀ dock ∈ host.docks, ∀ copy ∈ dock,
      findControlDescriptor host.controls copy.id = some copy) : Consistent patches host where
  repeats := (List.pairwise_map.mp hids).imp fun hne heq => absurd heq hne
  copies := fun dock hdock copy hcopy => ⟨copy, hcopies dock hdock copy hcopy, rfl⟩

/-- The host of an update that goes through, from its loop. -/
theorem update_eq_ok {host host' : ControlHost}
    (h : updateControlProperties readers now host patches = .ok host') :
    ∃ copies, patchControls readers now patches 0
        ⟨host.controls, host.controlValues, host.controlUpdatedAtMs⟩ = .ok copies ∧
      host' = ⟨host.scriptLoaded, copies.controls, copies.values, copies.timestamps,
        host.docks.map fun dock => dock.map (refreshCopy copies.controls)⟩ := by
  unfold updateControlProperties at h
  split at h
  · cases h
  · obtain ⟨copies, hcopies, h⟩ := bind_eq_ok.mp h
    cases h
    exact ⟨copies, hcopies, rfl⟩

/-- The docks get what is found in the list. -/
theorem map_refreshCopy {controls : List ControlDescriptor} {docks : List (List ControlDescriptor)}
    (hcopies : ∀ dock ∈ docks, ∀ copy ∈ dock, ∃ control,
      findControlDescriptor controls copy.id = some control ∧
        control.patchedBy patches = copy.patchedBy patches) :
    (docks.map fun dock => dock.map (refreshCopy (firstPatched patches [] controls))) =
      docks.map fun dock => dock.map (·.patchedBy patches) := by
  apply List.map_congr_left
  intro dock hdock
  apply List.map_congr_left
  intro copy hcopy
  obtain ⟨control, hfound, hsame⟩ := hcopies dock hdock copy hcopy
  unfold refreshCopy
  rw [find_firstPatched List.not_mem_nil, hfound, ← hsame]
  rfl

/-- An update that goes through is as it should be exactly if the host is consistent. -/
theorem updated_iff {host host' : ControlHost} (hkeys : (patches.map (·.1)).Nodup)
    (h : updateControlProperties readers now host patches = .ok host') :
    Updated readers now patches host host' ↔ Consistent patches host := by
  obtain ⟨copies, hloop, rfl⟩ := update_eq_ok h
  have hfoldl := @patchControls_toOption readers now patches 0 (Nat.zero_le 4096)
    ⟨host.controls, host.controlValues, host.controlUpdatedAtMs⟩
  rw [hloop] at hfoldl
  split at hfoldl
  swap
  · cases hfoldl
  obtain ⟨hcontrols, hothers, hown⟩ := patched_of_foldl hkeys hfoldl.symm
  dsimp only at hcontrols hothers hown
  constructor
  · rintro ⟨hall, hdocks, hcopies, -, -, -⟩
    dsimp only at hall hdocks hcopies
    refine ⟨((firstPatched_eq_map).mp (hcontrols.symm.trans hall)).2,
      fun dock hdock copy hcopy => ?_⟩
    have hcopy' : copy.patchedBy patches ∈ dock.map (·.patchedBy patches) :=
      List.mem_map_of_mem hcopy
    have hdock' : dock.map (·.patchedBy patches) ∈
        host.docks.map fun dock => dock.map (·.patchedBy patches) := List.mem_map_of_mem hdock
    rw [← hdocks] at hdock'
    have hfound := hcopies _ hdock' _ hcopy'
    rw [hcontrols, find_firstPatched List.not_mem_nil, patchedBy_id, Option.map_eq_some_iff]
      at hfound
    exact hfound
  · rintro ⟨hrepeats, hcopies⟩
    refine ⟨hcontrols.trans (firstPatched_eq_map.mpr
      ⟨fun _ _ hmem => (List.not_mem_nil hmem).elim, hrepeats⟩), ?_, ?_, rfl, hothers, ?_⟩
    · dsimp only
      rw [hcontrols]
      exact map_refreshCopy hcopies
    · dsimp only
      rw [hcontrols, map_refreshCopy hcopies]
      intro dock' hdock' copy' hcopy'
      obtain ⟨dock, hdock, rfl⟩ := List.mem_map.mp hdock'
      obtain ⟨copy, hcopy, rfl⟩ := List.mem_map.mp hcopy'
      obtain ⟨control, hfound, hsame⟩ := hcopies dock hdock copy hcopy
      rw [find_firstPatched List.not_mem_nil, patchedBy_id, hfound, ← hsame]
      rfl
    · intro id patch hentry
      obtain ⟨other, patch', control, patched, hkey, hitem, hfound, hpatched, hvalue, htime⟩ :=
        hown _ _ hentry
      cases hkey
      cases hitem
      obtain ⟨hdescriptor, hnamed, value, hresult, hvalid⟩ := patchControl_ok hpatched
      have hpatchedBy : control.patchedBy patches = control.patched patch := by
        unfold ControlDescriptor.patchedBy patchFor
        rw [findControlDescriptor_id hfound, get_of_mem hkeys hentry]
        rfl
      refine ⟨control.patched patch, value, patched.2, ?_, hnamed, hvalue.trans hresult, hresult,
        htime, hvalid⟩
      dsimp only
      rw [hcontrols, find_firstPatched List.not_mem_nil, hfound, ← hpatchedBy]
      rfl

/-- The result of an update, with the text of an error left out. -/
theorem update_toOption (host : ControlHost) (patches : LuaTable) :
    (updateControlProperties readers now host patches).toOption =
      if host.scriptLoaded = true then
        (patchControls readers now patches 0
          ⟨host.controls, host.controlValues, host.controlUpdatedAtMs⟩).toOption.map fun copies =>
            ⟨host.scriptLoaded, copies.controls, copies.values, copies.timestamps,
              host.docks.map fun dock => dock.map (refreshCopy copies.controls)⟩
      else none := by
  unfold updateControlProperties
  cases host.scriptLoaded with
  | false => rfl
  | true =>
    rw [if_neg (by decide), if_pos rfl]
    cases patchControls readers now patches 0 _ with
    | error message => rfl
    | ok copies => rfl

theorem update_eq_elim (host : ControlHost) (patches : LuaTable) :
    host.update readers now patches =
      (updateControlProperties readers now host patches).toOption.elim (host, false)
        fun host' => (host', true) := by
  unfold ControlHost.update
  cases updateControlProperties readers now host patches with
  | error message => rfl
  | ok host' => rfl

/-- **An update is all or nothing, whatever the order in which the table is visited; one that goes
through leaves what it should exactly if the first control with an id stands for all of them.** -/
theorem update_atomic (readers : ControlReaders) (now : String → ℕ) (host : ControlHost)
    (patches : LuaTable) (hkeys : (patches.map (·.1)).Nodup) :
    (∀ patches', patches.Perm patches' →
      host.update readers now patches' = host.update readers now patches) ∧
    ((host.update readers now patches).2 = false →
      (host.update readers now patches).1 = host) ∧
    ((host.update readers now patches).2 = true →
      (Updated readers now patches host (host.update readers now patches).1 ↔
        Consistent patches host)) := by
  refine ⟨fun patches' hperm => ?_, ?_, ?_⟩
  · rw [update_eq_elim, update_eq_elim, update_toOption, update_toOption,
      patchControls_perm hperm hkeys]
  · unfold ControlHost.update
    split
    · intro h
      cases h
    · exact fun _ => rfl
  · unfold ControlHost.update
    split
    · rename_i host' hresult
      exact fun _ => updated_iff hkeys hresult
    · intro h
      cases h

end Update

/-- Readers for scripts without tables and readouts. -/
def plainReaders : ControlReaders where
  valueTable := fun _ _ => .ok []
  txSequence := fun _ _ => .ok {}
  formatFixed := fun _ _ => ""

/-- A host as a script leaves it that declares text controls in the docks. -/
def hostOf (docks : List (List ControlDescriptor)) : ControlHost where
  scriptLoaded := true
  controls := docks.flatten
  controlValues := fun _ => some (.text "")
  docks := docks

/-- A label and a tooltip are patched in one update. -/
theorem update_atomic_two :
    Updated plainReaders (fun _ => 7)
      [(.string "b", .table [(.string "tooltip", .string "t")]),
        (.string "a", .table [(.string "label", .string "A")])]
      (hostOf [[{ type := .inputText, id := "a" }], [{ type := .inputText, id := "b" }]])
      ((hostOf [[{ type := .inputText, id := "a" }], [{ type := .inputText, id := "b" }]]).update
        plainReaders (fun _ => 7)
        [(.string "b", .table [(.string "tooltip", .string "t")]),
          (.string "a", .table [(.string "label", .string "A")])]).1 := by
  refine ((update_atomic plainReaders (fun _ => 7) _ _ (by simp)).2.2 (by decide)).mpr ?_
  refine Consistent.of_distinct (by decide) fun dock hdock copy hcopy => ?_
  rcases List.mem_cons.mp hdock with rfl | hdock
  · rw [List.mem_singleton.mp hcopy]
    rfl
  · rw [List.mem_singleton.mp hdock] at hcopy
    rw [List.mem_singleton.mp hcopy]
    rfl

/-- Two docks declare a control `a`, and a patch of `b` changes the second one's type. -/
theorem update_changes_other :
    ¬∀ (readers : ControlReaders) (now : String → ℕ) (host : ControlHost) (patches : LuaTable),
      (patches.map (·.1)).Nodup → (host.update readers now patches).2 = true →
        Updated readers now patches host (host.update readers now patches).1 := by
  intro h
  have hupdated := h plainReaders (fun _ => 7)
    (hostOf [[{ type := .inputText, id := "a" }],
      [{ type := .label, id := "a" }, { type := .inputText, id := "b" }]])
    [(.string "b", .table [(.string "label", .string "B")])] (by simp) (by decide)
  have htypes := congrArg (fun docks => docks.map fun dock => dock.map (·.type)) hupdated.docks
  exact absurd htypes (by decide)

end ProtoScope.Scripting
