/-
Keeping the better of two values.

A running minimum or maximum keeps the old value unless the new one beats it, so of
equally good values the first stays.  When beating is transitive and a value between two
others is beaten by the one or beats the other, it does not matter how a sequence of
values is bracketed; when moreover of two different values one beats the other, the order
does not matter either.
-/
import Mathlib.Tactic.Common

namespace ProtoScope.Library.Selection

variable {β : Type*} (beats : β → β → Bool)

def pick (new old : β) : β :=
  if beats new old then new else old

variable {beats}

theorem pick_of_beats {new old : β} (h : beats new old = true) : pick beats new old = new :=
  if_pos h

theorem pick_of_not_beats {new old : β} (h : ¬ beats new old = true) : pick beats new old = old :=
  if_neg h

/-- A property of both candidates is one of the chosen value. -/
theorem pick_induction {P : β → Prop} {new old : β} (hnew : beats new old = true → P new)
    (hold : P old) : P (pick beats new old) := by
  unfold pick
  split
  · exact hnew ‹_›
  · exact hold

/-- **Selection associates**, for a value in the middle that every pair in the order has
on one side of it. -/
theorem pick_assoc {a b c : β}
    (htrans : beats c b = true → beats b a = true → beats c a = true)
    (hmiddle : beats c a = true → beats b a = true ∨ beats c b = true) :
    pick beats c (pick beats b a) = pick beats (pick beats c b) a := by
  by_cases hba : beats b a = true
  · by_cases hcb : beats c b = true
    · rw [pick_of_beats hba, pick_of_beats hcb, pick_of_beats (htrans hcb hba)]
    · rw [pick_of_beats hba, pick_of_not_beats hcb, pick_of_beats hba]
  · by_cases hcb : beats c b = true
    · rw [pick_of_not_beats hba, pick_of_beats hcb]
    · have hca : ¬ beats c a = true := by
        intro h
        exact (hmiddle h).elim hba hcb
      rw [pick_of_not_beats hba, pick_of_not_beats hcb, pick_of_not_beats hca,
        pick_of_not_beats hba]

/-- Selection commutes when of two different values exactly one beats the other. -/
theorem pick_comm {a b : β} (hasymm : beats a b = true → ¬ beats b a = true)
    (htotal : a = b ∨ beats a b = true ∨ beats b a = true) :
    pick beats a b = pick beats b a := by
  rcases htotal with h | h | h
  · rw [h]
  · rw [pick_of_beats h, pick_of_not_beats (hasymm h)]
  · have hab : ¬ beats a b = true := by
      intro hc
      exact hasymm hc h
    rw [pick_of_beats h, pick_of_not_beats hab]

/-- **A running selection is one of the values, and none of them beats it.** -/
theorem foldl_pick_best (hasymm : ∀ a b, beats a b = true → ¬ beats b a = true)
    (hneg : ∀ a b c, ¬ beats a b = true → ¬ beats b c = true → ¬ beats a c = true)
    (first : β) (xs : List β) :
    xs.foldl (fun best x => pick beats x best) first ∈ first :: xs ∧
      ∀ y ∈ first :: xs, ¬ beats y (xs.foldl (fun best x => pick beats x best) first) = true := by
  induction xs generalizing first with
  | nil =>
    refine ⟨List.mem_cons_self, fun y hy => ?_⟩
    rw [List.mem_singleton.mp hy]
    exact fun h => hasymm first first h h
  | cons x xs ih =>
    obtain ⟨hmem, hbest⟩ := ih (pick beats x first)
    rw [List.foldl_cons]
    have hpicked := hbest _ List.mem_cons_self
    have hrest : ∀ y ∈ xs, _ := fun y hy => hbest y (List.mem_cons_of_mem _ hy)
    by_cases hbeats : beats x first = true
    · rw [pick_of_beats hbeats] at hmem hpicked hrest ⊢
      refine ⟨List.mem_cons_of_mem _ hmem, fun y hy => ?_⟩
      rcases List.mem_cons.mp hy with rfl | hy
      · exact hneg _ _ _ (hasymm _ _ hbeats) hpicked
      · rcases List.mem_cons.mp hy with rfl | hy
        · exact hpicked
        · exact hrest y hy
    · rw [pick_of_not_beats hbeats] at hmem hpicked hrest ⊢
      refine ⟨?_, fun y hy => ?_⟩
      · rcases List.mem_cons.mp hmem with heq | hmem
        · rw [heq]
          exact List.mem_cons_self
        · exact List.mem_cons_of_mem _ (List.mem_cons_of_mem _ hmem)
      · rcases List.mem_cons.mp hy with rfl | hy
        · exact hpicked
        · rcases List.mem_cons.mp hy with rfl | hy
          · exact hneg _ _ _ hbeats hpicked
          · exact hrest y hy

end ProtoScope.Library.Selection
