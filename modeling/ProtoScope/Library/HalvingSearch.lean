/-
A search that skips parts of a range.

The search looks for the first position of a range with a result, or for the last one.  A
part that is known to hold none is skipped, a long part is halved and searched half by half,
and a short one is searched position by position.  It finds what a search of the whole range
finds, however the parts are cut, as long as no part that holds a result is skipped.
-/
import Mathlib.Data.List.Basic
import Mathlib.Tactic.Common

namespace ProtoScope.Library.HalvingSearch

variable {β : Type*}

/-- The positions of a range in the direction of the search. -/
def positions (reverse : Bool) (left right : ℕ) : List ℕ :=
  if reverse then (List.range' left (right - left)).reverse else List.range' left (right - left)

/-- The search with an upper bound on its depth, which the length of the range is. -/
def search (skip : ℕ → ℕ → Bool) (leaf : ℕ) (reverse : Bool) (result : ℕ → Option β) :
    ℕ → ℕ → ℕ → Option β
  | 0, _, _ => none
  | fuel + 1, left, right =>
    if right ≤ left then none
    else if skip left right then none
    else if leaf < right - left then
      let mid := left + (right - left) / 2
      match if reverse then search skip leaf reverse result fuel mid right
          else search skip leaf reverse result fuel left mid with
      | some hit => some hit
      | none =>
        if reverse then search skip leaf reverse result fuel left mid
        else search skip leaf reverse result fuel mid right
    else (positions reverse left right).findSome? result

/-! ### The positions of a range -/

theorem mem_positions {reverse : Bool} {left right i : ℕ} :
    i ∈ positions reverse left right ↔ left ≤ i ∧ i < right := by
  unfold positions
  split
  · rw [List.mem_reverse, List.mem_range'_1]
    omega
  · rw [List.mem_range'_1]
    omega

theorem range'_split {left mid right : ℕ} (hleft : left ≤ mid) (hright : mid ≤ right) :
    List.range' left (right - left) =
      List.range' left (mid - left) ++ List.range' mid (right - mid) := by
  have hlength : right - left = mid - left + (right - mid) := by omega
  have hmid : left + (mid - left) = mid := by omega
  rw [hlength, ← List.range'_append_1, hmid]

variable {result : ℕ → Option β}

/-- A result of the part that is searched first comes before those of the other part. -/
theorem findSome_split (reverse : Bool) {left mid right : ℕ} (hleft : left ≤ mid)
    (hright : mid ≤ right) :
    (positions reverse left right).findSome? result =
      if reverse then
        ((positions reverse mid right).findSome? result).or
          ((positions reverse left mid).findSome? result)
      else
        ((positions reverse left mid).findSome? result).or
          ((positions reverse mid right).findSome? result) := by
  unfold positions
  rw [range'_split hleft hright]
  cases reverse with
  | true =>
    simp only [if_true]
    rw [List.reverse_append, List.findSome?_append]
  | false =>
    simp only [Bool.false_eq_true, if_false]
    rw [List.findSome?_append]

theorem findSome_none {reverse : Bool} {left right : ℕ}
    (h : ∀ i, left ≤ i → i < right → result i = none) :
    (positions reverse left right).findSome? result = none := by
  rw [List.findSome?_eq_none_iff]
  intro i hi
  obtain ⟨hleft, hright⟩ := mem_positions.mp hi
  exact h i hleft hright

theorem findSome_congr {other : ℕ → Option β} {reverse : Bool} {left right : ℕ}
    (h : ∀ i, left ≤ i → i < right → result i = other i) :
    (positions reverse left right).findSome? result =
      (positions reverse left right).findSome? other := by
  have hsame : ∀ i ∈ positions reverse left right, result i = other i := by
    intro i hi
    obtain ⟨hleft, hright⟩ := mem_positions.mp hi
    exact h i hleft hright
  generalize positions reverse left right = indices at hsame
  induction indices with
  | nil => rfl
  | cons i indices ih =>
    rw [List.findSome?_cons, List.findSome?_cons, hsame i List.mem_cons_self,
      ih fun j hj => hsame j (List.mem_cons_of_mem _ hj)]

/-- Positions without a result on either side of a range may be left out. -/
theorem findSome_restrict (reverse : Bool) {lo left right hi : ℕ} (hleft : lo ≤ left)
    (hright : right ≤ hi)
    (hbefore : ∀ i, lo ≤ i → i < hi → i < left → result i = none)
    (hafter : ∀ i, lo ≤ i → i < hi → right ≤ i → result i = none) :
    (positions reverse lo hi).findSome? result = (positions reverse left right).findSome? result := by
  rcases Nat.lt_or_ge right left with hempty | hle
  · rw [findSome_none fun i hlo hhi => ?_, findSome_none fun i hi hlt => ?_]
    · omega
    · rcases Nat.lt_or_ge i left with hlt | hge
      · exact hbefore i hlo hhi hlt
      · exact hafter i hlo hhi (by omega)
  · rw [findSome_split reverse hleft (Nat.le_trans hle hright),
      findSome_split reverse hle hright,
      @findSome_none _ result reverse lo left fun i hlo hlt => hbefore i hlo (by omega) hlt,
      @findSome_none _ result reverse right hi fun i hge hlt => hafter i (by omega) hlt hge]
    cases reverse <;> simp

/-! ### The search -/

/-- **Skipping loses nothing.** -/
theorem search_eq {skip : ℕ → ℕ → Bool} {leaf : ℕ} (hleaf : 0 < leaf) {reverse : Bool} :
    ∀ (fuel left right : ℕ), right - left ≤ fuel →
      (∀ l r, left ≤ l → l < r → r ≤ right → skip l r = true →
        ∀ i, l ≤ i → i < r → result i = none) →
      search skip leaf reverse result fuel left right =
        (positions reverse left right).findSome? result := by
  intro fuel
  induction fuel with
  | zero =>
    intro left right hfuel _
    exact (findSome_none fun i hleft hright => by omega).symm
  | succ fuel ih =>
    intro left right hfuel hskip
    unfold search
    split
    · exact (findSome_none fun i hleft hright => by omega).symm
    · split
      · rename_i hskipped
        exact (findSome_none
          (hskip left right (Nat.le_refl _) (by omega) (Nat.le_refl _) hskipped)).symm
      · split
        · dsimp only
          generalize hmid : left + (right - left) / 2 = mid
          have hlower := ih left mid (by omega) fun l r hl hlr hr =>
            hskip l r hl hlr (by omega)
          have hupper := ih mid right (by omega) fun l r hl hlr hr =>
            hskip l r (by omega) hlr hr
          have hsplit := @findSome_split _ result reverse left mid right (by omega) (by omega)
          rw [hlower, hupper, hsplit]
          cases reverse with
          | true =>
            simp only [if_true]
            cases (positions true mid right).findSome? result <;> rfl
          | false =>
            simp only [Bool.false_eq_true, if_false]
            cases (positions false left mid).findSome? result <;> rfl
        · rfl

end ProtoScope.Library.HalvingSearch
