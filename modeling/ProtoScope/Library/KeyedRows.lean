/-
Rows with a key, each key once, and what a total over them becomes when one row is replaced.

A table keeps its rows in any order and an ordered map keeps them by key; that both hold the
same rows is said by a permutation.
-/
import Mathlib.Algebra.BigOperators.Group.List.Basic
import Mathlib.Algebra.GroupWithZero.Nat
import ProtoScope.Library.OrderedMap

namespace ProtoScope.Library.KeyedRows

variable {κ α : Type}

def keys (rows : List (κ × α)) : List κ := rows.map (·.1)

/-- The sum of a size over the rows. -/
def total (size : κ → α → ℕ) (rows : List (κ × α)) : ℕ := (rows.map fun row => size row.1 row.2).sum

theorem total_perm {size : κ → α → ℕ} {rows rows' : List (κ × α)} (h : rows.Perm rows') :
    total size rows = total size rows' :=
  (h.map _).sum_eq

@[simp] theorem total_cons (size : κ → α → ℕ) (row : κ × α) (rows : List (κ × α)) :
    total size (row :: rows) = size row.1 row.2 + total size rows := by
  simp [total]

variable [DecidableEq κ]

def erase (key : κ) (rows : List (κ × α)) : List (κ × α) := rows.filter fun row => row.1 ≠ key

/-- Replaces the row of a key where it stands, or adds one. -/
def upsert (key : κ) (value : α) (rows : List (κ × α)) : List (κ × α) :=
  if key ∈ keys rows then rows.map fun row => if row.1 = key then (key, value) else row
  else rows ++ [(key, value)]

theorem keys_erase_sublist (key : κ) (rows : List (κ × α)) :
    (keys (erase key rows)).Sublist (keys rows) :=
  List.filter_sublist.map _

theorem not_mem_keys_erase (key : κ) (rows : List (κ × α)) : key ∉ keys (erase key rows) := by
  intro h
  obtain ⟨row, hrow, hkey⟩ := List.mem_map.mp h
  have := (List.mem_filter.mp hrow).2
  simp [hkey] at this

theorem erase_of_not_mem {key : κ} {rows : List (κ × α)} (h : key ∉ keys rows) :
    erase key rows = rows := by
  apply List.filter_eq_self.mpr
  intro row hrow
  have hne : row.1 ≠ key := by
    rintro rfl
    exact h (List.mem_map_of_mem hrow)
  simpa using hne

theorem erase_perm {key : κ} {rows rows' : List (κ × α)} (h : rows.Perm rows') :
    (erase key rows).Perm (erase key rows') :=
  h.filter _

theorem keys_upsert (key : κ) (value : α) (rows : List (κ × α)) :
    keys (upsert key value rows) = if key ∈ keys rows then keys rows else keys rows ++ [key] := by
  unfold upsert keys
  split
  · rw [List.map_map]
    apply List.map_congr_left
    intro row _
    dsimp only [Function.comp]
    split
    · rename_i h
      exact h.symm
    · rfl
  · simp

theorem nodup_keys_upsert {key : κ} {value : α} {rows : List (κ × α)} (h : (keys rows).Nodup) :
    (keys (upsert key value rows)).Nodup := by
  rw [keys_upsert]
  split
  · exact h
  · rename_i hkey
    exact List.nodup_append.mpr ⟨h, List.pairwise_singleton _ _, by
      rintro k hk _ hmem rfl
      rw [List.mem_singleton] at hmem
      exact hkey (hmem ▸ hk)⟩

/-- **The row of the key is replaced, and no other one.** -/
theorem upsert_perm {key : κ} {value : α} {rows : List (κ × α)} (h : (keys rows).Nodup) :
    (upsert key value rows).Perm ((key, value) :: erase key rows) := by
  unfold upsert
  split
  · rename_i hkey
    induction rows with
    | nil => cases hkey
    | cons row rows ih =>
      obtain ⟨hnot, hnodup⟩ := List.nodup_cons.mp h
      rw [List.map_cons]
      by_cases hrow : row.1 = key
      · have hrest : key ∉ keys rows := hrow ▸ hnot
        have hsame : rows.map (fun row => if row.1 = key then (key, value) else row) = rows := by
          apply (List.map_congr_left ?_).trans (List.map_id rows)
          intro other hother
          rw [if_neg]
          · rfl
          · rintro rfl
            exact hrest (List.mem_map_of_mem hother)
        rw [if_pos hrow, hsame]
        have herase : erase key (row :: rows) = rows := by
          unfold erase
          rw [List.filter_cons_of_neg (by simp [hrow])]
          exact erase_of_not_mem hrest
        rw [herase]
      · have hmem : key ∈ keys rows := by
          rcases List.mem_cons.mp hkey with hfirst | hmem
          · exact absurd hfirst.symm hrow
          · exact hmem
        have herase : erase key (row :: rows) = row :: erase key rows :=
          List.filter_cons_of_pos (by simpa using hrow)
        rw [if_neg hrow, herase]
        exact ((ih hnodup hmem).cons row).trans (List.Perm.swap _ _ _)
  · rename_i hkey
    rw [erase_of_not_mem hkey]
    exact List.perm_append_singleton _ _

def find (key : κ) : List (κ × α) → Option α
  | [] => none
  | row :: rows => if row.1 = key then some row.2 else find key rows

theorem find_cons_self (row : κ × α) (rows : List (κ × α)) :
    find row.1 (row :: rows) = some row.2 := if_pos rfl

theorem find_cons_of_ne {key : κ} {row : κ × α} (h : row.1 ≠ key) (rows : List (κ × α)) :
    find key (row :: rows) = find key rows := if_neg h

theorem find_of_not_mem {key : κ} {rows : List (κ × α)} (h : key ∉ keys rows) :
    find key rows = none := by
  induction rows with
  | nil => rfl
  | cons row rows ih =>
    have hrow : row.1 ≠ key := fun heq => h (by rw [← heq]; exact List.mem_cons_self)
    rw [find_cons_of_ne hrow]
    exact ih fun hmem => h (List.mem_cons_of_mem _ hmem)

/-- A row with a new key is put at the end. -/
theorem upsert_of_not_mem {key : κ} (value : α) {rows : List (κ × α)} (h : key ∉ keys rows) :
    upsert key value rows = rows ++ [(key, value)] :=
  if_neg h

theorem mem_erase {key : κ} {row : κ × α} {rows : List (κ × α)} :
    row ∈ erase key rows ↔ row ∈ rows ∧ row.1 ≠ key := by
  unfold erase
  rw [List.mem_filter, decide_eq_true_eq]

theorem find_isSome {key : κ} {rows : List (κ × α)} :
    (find key rows).isSome = true ↔ key ∈ keys rows := by
  induction rows with
  | nil => exact ⟨fun h => (by cases h), fun h => (by cases h)⟩
  | cons row rows ih =>
    by_cases hrow : row.1 = key
    · rw [find, if_pos hrow]
      exact ⟨fun _ => by rw [← hrow]; exact List.mem_cons_self, fun _ => rfl⟩
    · rw [find, if_neg hrow, ih]
      refine ⟨fun h => List.mem_cons_of_mem _ h, fun h => ?_⟩
      rcases List.mem_cons.mp h with heq | hmem
      · exact absurd heq.symm hrow
      · exact hmem

theorem find_append_singleton (row : κ × α) (rows : List (κ × α)) (key : κ) :
    find key (rows ++ [row]) = (find key rows).or (if row.1 = key then some row.2 else none) := by
  induction rows with
  | nil => rfl
  | cons first rows ih =>
    rw [List.cons_append, find, find, ih]
    split
    · rfl
    · rfl

/-- The row that was put in is found, and the others as before. -/
theorem find_upsert (key : κ) (value : α) (rows : List (κ × α)) (other : κ) :
    find other (upsert key value rows) = if other = key then some value else find other rows := by
  unfold upsert
  by_cases hmem : key ∈ keys rows
  · rw [if_pos hmem]
    by_cases hother : other = key
    · rw [if_pos hother, hother]
      clear hother
      induction rows with
      | nil => cases hmem
      | cons row rows ih =>
        rw [List.map_cons, find]
        by_cases hrow : row.1 = key
        · rw [if_pos (by rw [if_pos hrow]), if_pos hrow]
        · rw [if_neg hrow, if_neg hrow]
          rcases List.mem_cons.mp hmem with heq | hrest
          · exact absurd heq.symm hrow
          · exact ih hrest
    · rw [if_neg hother]
      clear hmem
      induction rows with
      | nil => rfl
      | cons row rows ih =>
        rw [List.map_cons, find, find, ih]
        by_cases hrow : row.1 = key
        · rw [if_pos hrow, if_neg (fun h => hother h.symm), if_neg]
          rw [hrow]
          exact fun h => hother h.symm
        · rw [if_neg hrow]
  · rw [if_neg hmem, find_append_singleton]
    by_cases hother : other = key
    · rw [if_pos hother, hother, find_of_not_mem hmem, if_pos rfl]
      rfl
    · rw [if_neg hother, if_neg fun h => hother h.symm, Option.or_none]

/-- What the row of a key adds to a total. -/
def sizeOf (size : κ → α → ℕ) (key : κ) (rows : List (κ × α)) : ℕ :=
  match find key rows with
  | none => 0
  | some value => size key value

/-- **A total without the row of a key.** -/
theorem total_erase {size : κ → α → ℕ} {key : κ} {rows : List (κ × α)} (h : (keys rows).Nodup) :
    total size rows = total size (erase key rows) + sizeOf size key rows := by
  induction rows with
  | nil => rfl
  | cons row rows ih =>
    obtain ⟨hnot, hnodup⟩ := List.nodup_cons.mp h
    by_cases hrow : row.1 = key
    · have hrest : key ∉ keys rows := hrow ▸ hnot
      have herase : erase key (row :: rows) = rows := by
        unfold erase
        rw [List.filter_cons_of_neg (by simp [hrow])]
        exact erase_of_not_mem hrest
      have hsize : sizeOf size key (row :: rows) = size row.1 row.2 := by
        unfold sizeOf
        rw [← hrow, find_cons_self]
      rw [herase, hsize, total_cons, Nat.add_comm]
    · have herase : erase key (row :: rows) = row :: erase key rows :=
        List.filter_cons_of_pos (by simpa using hrow)
      have hsize : sizeOf size key (row :: rows) = sizeOf size key rows := by
        unfold sizeOf
        rw [find_cons_of_ne hrow]
      rw [herase, hsize, total_cons, total_cons, ih hnodup, Nat.add_assoc]

theorem mem_of_find {key : κ} {value : α} {rows : List (κ × α)}
    (h : find key rows = some value) : (key, value) ∈ rows := by
  induction rows with
  | nil => cases h
  | cons row rows ih =>
    by_cases hkey : row.1 = key
    · rw [← hkey, find_cons_self] at h
      cases h
      rw [← hkey]
      exact List.mem_cons_self
    · rw [find_cons_of_ne hkey] at h
      exact List.mem_cons_of_mem _ (ih h)

theorem find_of_mem {key : κ} {value : α} {rows : List (κ × α)} (h : (keys rows).Nodup)
    (hmem : (key, value) ∈ rows) : find key rows = some value := by
  induction rows with
  | nil => cases hmem
  | cons row rows ih =>
    obtain ⟨hnot, hnodup⟩ := List.nodup_cons.mp h
    rcases List.mem_cons.mp hmem with rfl | hmem
    · exact find_cons_self (key, value) rows
    · have hkeys : key ∈ keys rows := List.mem_map_of_mem hmem
      have hne : row.1 ≠ key := by
        rintro rfl
        exact hnot hkeys
      rw [find_cons_of_ne hne]
      exact ih hnodup hmem

theorem find_eq_some {key : κ} {value : α} {rows : List (κ × α)} (h : (keys rows).Nodup) :
    find key rows = some value ↔ (key, value) ∈ rows :=
  ⟨mem_of_find, find_of_mem h⟩

/-- The order of the rows does not matter. -/
theorem find_perm {key : κ} {rows rows' : List (κ × α)} (h : (keys rows).Nodup)
    (hperm : rows.Perm rows') : find key rows = find key rows' := by
  apply Option.ext
  intro value
  rw [find_eq_some h, find_eq_some ((hperm.map _).nodup_iff.mp h)]
  exact hperm.mem_iff

theorem find_erase (key : κ) {rows : List (κ × α)} (h : (keys rows).Nodup) (other : κ) :
    find other (erase key rows) = if other = key then none else find other rows := by
  split
  · rename_i heq
    rw [heq, find_of_not_mem (not_mem_keys_erase key rows)]
  · rename_i hne
    apply Option.ext
    intro value
    rw [find_eq_some ((keys_erase_sublist key rows).nodup h), find_eq_some h, mem_erase]
    exact ⟨And.left, fun hmem => ⟨hmem, hne⟩⟩

section Ordered

open OrderedMap

variable [LT κ]

omit [DecidableEq κ] in
theorem nodup_keys_of_ascending {entries : List (κ × α)} (hirrefl : ∀ key : κ, ¬ key < key)
    (h : Ascending entries) : (keys entries).Nodup := by
  apply List.Pairwise.map _ _ h
  intro first second hlt heq
  rw [heq] at hlt
  exact hirrefl _ hlt

theorem erase_ascending {entries : List (κ × α)} (key : κ) (h : Ascending entries) :
    Ascending (erase key entries) :=
  List.Pairwise.filter _ h

/-- A key that is not there can be put in. -/
theorem emplace_of_not_mem [DecidableLT κ] {key : κ} (value : α) {entries : List (κ × α)}
    (h : key ∉ keys entries) : ∃ result, emplace key value entries = some result := by
  induction entries with
  | nil => exact ⟨_, rfl⟩
  | cons entry rest ih =>
    unfold emplace
    have hne : key ≠ entry.1 := by
      rintro rfl
      exact h List.mem_cons_self
    rw [if_neg hne]
    split
    · exact ⟨_, rfl⟩
    · obtain ⟨result, hresult⟩ := ih fun hmem => h (List.mem_cons_of_mem _ hmem)
      exact ⟨_, by rw [hresult]; rfl⟩

end Ordered

end ProtoScope.Library.KeyedRows
