/-
A line whose head is served.

Who stands in the line joins it once, at the end, and may leave it anywhere.  The head is
served, and may stay at the head to be served again.  Then whoever is served twice is served
by nobody in between: whoever was served and still stands is the head and was served last.
-/
import Mathlib.Data.List.Basic

namespace ProtoScope.Library

variable {α : Type}

/-- Equal entries stand together. -/
def Consecutive (served : List α) : Prop :=
  ∀ before x between after, served = before ++ x :: between ++ x :: after → ∀ y ∈ between, y = x

theorem consecutive_nil : Consecutive ([] : List α) := by
  intro before x between after h
  rw [List.append_assoc] at h
  cases (List.append_eq_nil_iff.mp h.symm).2

/-- One more at the end, that is new or the last one again. -/
theorem Consecutive.concat {served : List α} (h : Consecutive served) {x : α}
    (hlast : x ∈ served → served.getLast? = some x) : Consecutive (served ++ [x]) := by
  intro before z between after heq y hy
  obtain rfl | ⟨rest, last, rfl⟩ := List.eq_nil_or_concat after
  · -- The second of the two is the new one.
    obtain ⟨hserved, hz⟩ := List.append_inj' heq rfl
    cases hz
    have hmem : x ∈ served := by
      rw [hserved]
      exact List.mem_append_right _ List.mem_cons_self
    obtain rfl | ⟨front, last, rfl⟩ := List.eq_nil_or_concat between
    · cases hy
    · rw [List.concat_eq_append] at hserved hy
      have hend := hlast hmem
      rw [hserved, ← List.cons_append, ← List.append_assoc, List.getLast?_concat] at hend
      cases hend
      rw [← List.cons_append, ← List.append_assoc] at hserved
      obtain hy | hy := List.mem_append.mp hy
      · exact h before x front [] hserved y hy
      · exact List.mem_singleton.mp hy
  · rw [List.concat_eq_append, ← List.cons_append, ← List.append_assoc] at heq
    exact h before z between rest (List.append_inj' heq rfl).1 y hy

/-- A line: who stands in it, from its head, who was served, one after another, and who has
joined. -/
structure ServiceLine (α : Type) where
  standing : List α := []
  served : List α := []
  joined : List α := []

namespace ServiceLine

/-- Whoever was served and still stands is the head, and was served last. -/
structure Orderly (line : ServiceLine α) : Prop where
  nodup : line.standing.Nodup
  standing : ∀ x ∈ line.standing, x ∈ line.joined
  served : ∀ x ∈ line.served, x ∈ line.joined
  head : ∀ x ∈ line.served, x ∈ line.standing →
    line.standing.head? = some x ∧ line.served.getLast? = some x
  consecutive : Consecutive line.served

theorem orderly_empty : ({} : ServiceLine α).Orderly where
  nodup := List.nodup_nil
  standing := fun _ h => nomatch h
  served := fun _ h => nomatch h
  head := fun _ h => nomatch h
  consecutive := consecutive_nil

/-- The head is still the head after others have left. -/
theorem head?_of_sublist {left standing : List α} (hsub : left.Sublist standing)
    (hnodup : standing.Nodup) {x : α} (hhead : standing.head? = some x) (hmem : x ∈ left) :
    left.head? = some x := by
  induction hsub with
  | slnil => cases hmem
  | cons y hsub ih =>
    cases hhead
    exact absurd (hsub.subset hmem) (List.nodup_cons.mp hnodup).1
  | cons_cons y hsub ih => exact hhead

theorem Orderly.leave {line : ServiceLine α} (h : line.Orderly) {left : List α}
    (hsub : left.Sublist line.standing) : ({ line with standing := left }).Orderly where
  nodup := h.nodup.sublist hsub
  standing := fun x hx => h.standing x (hsub.subset hx)
  served := h.served
  head := fun x hserved hx =>
    ⟨head?_of_sublist hsub h.nodup (h.head x hserved (hsub.subset hx)).1 hx,
      (h.head x hserved (hsub.subset hx)).2⟩
  consecutive := h.consecutive

theorem Orderly.join {line : ServiceLine α} (h : line.Orderly) {news : List α} (hnews : news.Nodup)
    (hfresh : ∀ x ∈ news, x ∉ line.joined) :
    ({ line with
        standing := line.standing ++ news
        joined := line.joined ++ news }).Orderly where
  nodup := by
    rw [List.nodup_append]
    refine ⟨h.nodup, hnews, fun x hx y hy => ?_⟩
    rintro rfl
    exact hfresh x hy (h.standing x hx)
  standing := by
    intro x hx
    obtain hx | hx := List.mem_append.mp hx
    · exact List.mem_append_left _ (h.standing x hx)
    · exact List.mem_append_right _ hx
  served := fun x hx => List.mem_append_left _ (h.served x hx)
  head := by
    intro x hserved hx
    obtain hx | hx := List.mem_append.mp hx
    · obtain ⟨hhead, hlast⟩ := h.head x hserved hx
      refine ⟨?_, hlast⟩
      rw [List.head?_append, hhead]
      rfl
    · exact absurd (h.served x hserved) (hfresh x hx)
  consecutive := h.consecutive

/-- Those before the one that is served have left. -/
theorem Orderly.serve {line : ServiceLine α} (h : line.Orderly) {x : α} {rest : List α}
    (hsuffix : x :: rest <:+ line.standing) :
    ({ line with standing := x :: rest, served := line.served ++ [x] }).Orderly := by
  have hleft := h.leave hsuffix.sublist
  have hhead : ∀ y ∈ line.served, y ∈ x :: rest → y = x ∧ line.served.getLast? = some y := by
    intro y hserved hy
    obtain ⟨hfirst, hlast⟩ := hleft.head y hserved hy
    exact ⟨(Option.some.inj hfirst).symm, hlast⟩
  refine ⟨hleft.nodup, hleft.standing, ?_, ?_, ?_⟩
  · intro y hy
    obtain hy | hy := List.mem_append.mp hy
    · exact h.served y hy
    · rw [List.mem_singleton.mp hy]
      exact hleft.standing x List.mem_cons_self
  · intro y hserved hy
    have heq : y = x := by
      obtain hserved | hserved := List.mem_append.mp hserved
      · exact (hhead y hserved hy).1
      · exact List.mem_singleton.mp hserved
    rw [heq]
    exact ⟨rfl, List.getLast?_concat⟩
  · exact h.consecutive.concat fun hserved => (hhead x hserved List.mem_cons_self).2

end ServiceLine

end ProtoScope.Library
