/-
The longest suffix of a list that stays within limits.

A bounded history drops entries from its front until a new one fits.  When the limits hold of
every sublist of a list they hold of, what it keeps is, entry after entry, the longest suffix
of all entries so far that is within them.
-/
import Mathlib.Data.List.Infix

namespace ProtoScope.Library

variable {α : Type} {fits : List α → Prop}

structure LongestSuffix (fits : List α → Prop) (all kept : List α) : Prop where
  suffix : kept <:+ all
  within : fits kept
  longest : ∀ other, other <:+ all → fits other → other.length ≤ kept.length

/-- Drops entries from the front until the entry at the end fits behind the rest. -/
def dropToFit (fits : List α → Prop) [DecidablePred fits] (entry : α) : List α → List α
  | [] => []
  | first :: rest =>
    if fits (first :: rest ++ [entry]) then first :: rest else dropToFit fits entry rest

section Drop

variable [DecidablePred fits] {entry : α}

theorem dropToFit_suffix (kept : List α) : dropToFit fits entry kept <:+ kept := by
  induction kept with
  | nil => exact List.suffix_refl _
  | cons first rest ih =>
    unfold dropToFit
    split
    · exact List.suffix_refl _
    · exact ih.trans (List.suffix_cons first rest)

theorem dropToFit_fits (hentry : fits [entry]) (kept : List α) :
    fits (dropToFit fits entry kept ++ [entry]) := by
  induction kept with
  | nil => exact hentry
  | cons first rest ih =>
    unfold dropToFit
    split
    · assumption
    · exact ih

/-- Nothing is dropped that could have stayed. -/
theorem dropToFit_longest {kept other : List α} (hother : other <:+ kept)
    (hfits : fits (other ++ [entry])) : other.length ≤ (dropToFit fits entry kept).length := by
  induction kept with
  | nil =>
    rw [List.suffix_nil.mp hother]
    exact Nat.zero_le _
  | cons first rest ih =>
    unfold dropToFit
    split
    · exact hother.length_le
    · rename_i hnot
      rcases List.suffix_cons_iff.mp hother with rfl | hother
      · exact absurd hfits hnot
      · exact ih hother

end Drop

theorem LongestSuffix.nil (h : fits []) : LongestSuffix fits [] [] :=
  ⟨List.suffix_refl _, h, fun _ hother _ => hother.length_le⟩

/-- **One more entry.** -/
theorem LongestSuffix.push [DecidablePred fits] {all kept : List α} {entry : α}
    (h : LongestSuffix fits all kept)
    (hsublist : ∀ {list other : List α}, other.Sublist list → fits list → fits other)
    (hentry : fits [entry]) :
    LongestSuffix fits (all ++ [entry]) (dropToFit fits entry kept ++ [entry]) := by
  refine ⟨?_, dropToFit_fits hentry kept, ?_⟩
  · have hsuffix : dropToFit fits entry kept <:+ kept := dropToFit_suffix kept
    obtain ⟨before, hbefore⟩ := hsuffix.trans h.suffix
    exact ⟨before, by rw [← List.append_assoc, hbefore]⟩
  · intro other hother hfits
    rcases List.eq_nil_or_concat other with rfl | ⟨front, last, rfl⟩
    · exact Nat.zero_le _
    · rw [List.concat_eq_append] at hother hfits ⊢
      obtain ⟨before, hbefore⟩ := hother
      rw [← List.append_assoc] at hbefore
      obtain ⟨hfront, hlast⟩ := List.append_inj' hbefore rfl
      cases hlast
      have hall : front <:+ all := ⟨before, hfront⟩
      have hlength := h.longest front hall (hsublist (List.sublist_append_left _ _) hfits)
      have hkept : front <:+ kept := List.suffix_of_suffix_length_le hall h.suffix hlength
      rw [List.length_append, List.length_append]
      exact Nat.add_le_add_right (dropToFit_longest hkept hfits) _

end ProtoScope.Library
