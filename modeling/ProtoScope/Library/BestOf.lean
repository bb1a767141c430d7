/-
The first of the best candidates of a list.

One pass keeps the best candidate so far and its score; a later candidate replaces it only
with a better score.  What is left at the end scores no worse than any candidate of the
list, and nothing is left only when there was no candidate.
-/
import Mathlib.Order.WithBot
import Mathlib.Tactic.Common

namespace ProtoScope.Library.BestOf

variable {β K : Type*} [LinearOrder K] (candidate : β → Bool) (score : β → K)

def keep (best : WithTop K × Option β) (x : β) : WithTop K × Option β :=
  if candidate x = true ∧ (score x : WithTop K) < best.1 then (score x, some x) else best

/-- What holds of the best score and its holder after a list has been seen. -/
inductive Best (seen : List β) : WithTop K × Option β → Prop
  | none (h : ∀ x ∈ seen, ¬ candidate x = true) : Best seen (⊤, none)
  | some {x : β} (hmem : x ∈ seen) (hx : candidate x = true)
      (hleast : ∀ y ∈ seen, candidate y = true → score x ≤ score y) : Best seen (score x, some x)

variable {candidate score}

theorem keep_best {seen : List β} {best : WithTop K × Option β}
    (h : Best candidate score seen best) (x : β) :
    Best candidate score (seen ++ [x]) (keep candidate score best x) := by
  unfold keep
  by_cases hx : candidate x = true
  · cases h with
    | none hnone =>
      rw [if_pos ⟨hx, WithTop.coe_lt_top _⟩]
      refine Best.some (by simp) hx fun y hy hyc => ?_
      rcases List.mem_append.mp hy with hold | hnew
      · exact absurd hyc (hnone y hold)
      · rw [List.mem_singleton.mp hnew]
    | @some z hmem hz hleast =>
      by_cases hbetter : score x < score z
      · rw [if_pos ⟨hx, WithTop.coe_lt_coe.mpr hbetter⟩]
        refine Best.some (by simp) hx fun y hy hyc => ?_
        rcases List.mem_append.mp hy with hold | hnew
        · exact hbetter.le.trans (hleast y hold hyc)
        · rw [List.mem_singleton.mp hnew]
      · rw [if_neg fun h => hbetter (WithTop.coe_lt_coe.mp h.2)]
        refine Best.some (List.mem_append_left _ hmem) hz fun y hy hyc => ?_
        rcases List.mem_append.mp hy with hold | hnew
        · exact hleast y hold hyc
        · rw [List.mem_singleton.mp hnew]
          exact not_lt.mp hbetter
  · rw [if_neg fun h => hx h.1]
    cases h with
    | none hnone =>
      refine Best.none fun y hy => ?_
      rcases List.mem_append.mp hy with hold | hnew
      · exact hnone y hold
      · rw [List.mem_singleton.mp hnew]
        exact hx
    | some hmem hz hleast =>
      refine Best.some (List.mem_append_left _ hmem) hz fun y hy hyc => ?_
      rcases List.mem_append.mp hy with hold | hnew
      · exact hleast y hold hyc
      · rw [List.mem_singleton.mp hnew] at hyc
        exact absurd hyc hx

theorem foldl_keep_best (xs : List β) {seen : List β} {best : WithTop K × Option β}
    (h : Best candidate score seen best) :
    Best candidate score (seen ++ xs) (xs.foldl (keep candidate score) best) := by
  induction xs generalizing seen best with
  | nil => simpa using h
  | cons x xs ih =>
    rw [List.foldl_cons, List.append_cons]
    exact ih (keep_best h x)

/-- **A pass over a list ends with the best of its candidates.** -/
theorem best_foldl (xs : List β) :
    Best candidate score xs (xs.foldl (keep candidate score) (⊤, none)) := by
  have hstart : Best candidate score [] ((⊤ : WithTop K), (none : Option β)) :=
    Best.none fun x hx => absurd hx List.not_mem_nil
  simpa using foldl_keep_best xs hstart

end ProtoScope.Library.BestOf
