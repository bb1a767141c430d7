/-
Maps as lists of entries in ascending order of their keys, each key once.

`emplace` adds an entry at its place and fails on a key that is there.  A key above all
others goes to the end, so the entries of a map, emplaced one after another, give the map.
-/
import Mathlib.Data.List.Basic
import Mathlib.Tactic.Common

namespace ProtoScope.Library.OrderedMap

variable {κ α : Type}

/-- The keys ascend. -/
def Ascending [LT κ] (entries : List (κ × α)) : Prop :=
  entries.Pairwise fun first second => first.1 < second.1

instance [LT κ] [DecidableLT κ] (entries : List (κ × α)) : Decidable (Ascending entries) :=
  inferInstanceAs (Decidable (entries.Pairwise _))

variable [LT κ] [DecidableLT κ] [DecidableEq κ]

def emplace (key : κ) (value : α) : List (κ × α) → Option (List (κ × α))
  | [] => some [(key, value)]
  | entry :: rest =>
    if key = entry.1 then none
    else if key < entry.1 then some ((key, value) :: entry :: rest)
    else (emplace key value rest).map (entry :: ·)

theorem emplace_perm {key : κ} {value : α} {entries result : List (κ × α)}
    (h : emplace key value entries = some result) : result.Perm ((key, value) :: entries) := by
  induction entries generalizing result with
  | nil =>
    cases h
    exact List.Perm.refl _
  | cons entry rest ih =>
    unfold emplace at h
    split_ifs at h
    · cases h
      exact List.Perm.refl _
    · obtain ⟨inner, hinner, rfl⟩ := Option.map_eq_some_iff.mp h
      exact ((ih hinner).cons entry).trans (List.Perm.swap _ _ _)

variable [LE κ] [Std.IsLinearOrder κ] [Std.LawfulOrderLT κ]

/-- A key above all others is put at the end. -/
theorem emplace_of_above {key : κ} (value : α) {entries : List (κ × α)}
    (habove : ∀ entry ∈ entries, entry.1 < key) :
    emplace key value entries = some (entries ++ [(key, value)]) := by
  induction entries with
  | nil => rfl
  | cons entry rest ih =>
    have hlt : entry.1 < key := habove entry List.mem_cons_self
    have hne : key ≠ entry.1 := fun heq => Std.lt_irrefl (heq ▸ hlt)
    unfold emplace
    rw [if_neg hne, if_neg (Std.not_lt.mpr (Std.le_of_lt hlt)),
      ih fun other hother => habove other (List.mem_cons_of_mem _ hother)]
    rfl

theorem emplace_ascending {key : κ} {value : α} {entries result : List (κ × α)}
    (hentries : Ascending entries) (h : emplace key value entries = some result) :
    Ascending result := by
  induction entries generalizing result with
  | nil =>
    cases h
    exact List.pairwise_singleton _ _
  | cons entry rest ih =>
    obtain ⟨hfirst, hrest⟩ := List.pairwise_cons.mp hentries
    unfold emplace at h
    split_ifs at h with heq hlt
    · cases h
      refine List.pairwise_cons.mpr ⟨fun other hother => ?_, hentries⟩
      rcases List.mem_cons.mp hother with rfl | hother
      · exact hlt
      · exact Std.lt_trans hlt (hfirst other hother)
    · obtain ⟨inner, hinner, rfl⟩ := Option.map_eq_some_iff.mp h
      refine List.pairwise_cons.mpr ⟨fun other hother => ?_, ih hrest hinner⟩
      rcases List.mem_cons.mp ((emplace_perm hinner).mem_iff.mp hother) with rfl | hother
      · exact Std.lt_of_le_of_ne (Std.not_lt.mp hlt) (Ne.symm heq)
      · exact hfirst other hother

end ProtoScope.Library.OrderedMap
