/-
Strict weak orders: what a sort or a priority queue asks of its comparison.

An order is given by what comes strictly before what.  Elements may tie, and ties are
transitive: an element that comes before another also does so from any third one, or the
third one does from it.  Orders are built by reading a key, by reversing, and by breaking
the ties of one with another.
-/
import Mathlib.Order.Defs.LinearOrder
import Mathlib.Tactic.Common

namespace ProtoScope.Library

variable {α β : Type}

structure WeakOrder (lt : α → α → Prop) : Prop where
  asymm : ∀ {a b : α}, lt a b → ¬ lt b a
  split : ∀ {a c : α}, lt a c → ∀ b, lt a b ∨ lt b c

/-- The second order decides where the first one ties. -/
def ThenBy (first second : α → α → Prop) (a b : α) : Prop := first a b ∨ ¬ first b a ∧ second a b

instance {first second : α → α → Prop} [DecidableRel first] [DecidableRel second] :
    DecidableRel (ThenBy first second) :=
  fun a b => inferInstanceAs (Decidable (first a b ∨ ¬ first b a ∧ second a b))

namespace WeakOrder

theorem of_linear [LT α] [LE α] [Std.IsLinearOrder α] [Std.LawfulOrderLT α] :
    WeakOrder fun a b : α => a < b := by
  constructor
  · intro a b hab hba
    exact Std.lt_irrefl (Std.lt_trans hab hba)
  · intro a c hac b
    by_cases hab : a < b
    · exact .inl hab
    · right
      have hba : b ≤ a := Std.not_lt.mp hab
      exact Std.lt_of_le_of_lt hba hac

theorem tied : WeakOrder fun _ _ : α => False :=
  ⟨fun h => h.elim, fun h => h.elim⟩

theorem comap {lt : β → β → Prop} (h : WeakOrder lt) (key : α → β) :
    WeakOrder fun a b => lt (key a) (key b) :=
  ⟨fun hab => h.asymm hab, fun hac b => h.split hac (key b)⟩

theorem swap {lt : α → α → Prop} (h : WeakOrder lt) : WeakOrder fun a b => lt b a :=
  ⟨fun hab => h.asymm hab, fun hac b => (h.split hac b).symm⟩

/-- The second comparison has to split only among elements that tie in the first. -/
theorem thenBy {first second : α → α → Prop} (hfirst : WeakOrder first)
    (hasymm : ∀ {a b : α}, second a b → ¬ second b a)
    (hsplit : ∀ {a b c : α}, ¬ first a b → ¬ first b a → ¬ first b c → ¬ first c b →
      second a c → second a b ∨ second b c) : WeakOrder (ThenBy first second) := by
  constructor
  · intro a b hab hba
    rcases hab with hab | ⟨hnot, hab⟩
    · rcases hba with hba | ⟨hnot, -⟩
      · exact hfirst.asymm hab hba
      · exact hnot hab
    · rcases hba with hba | ⟨-, hba⟩
      · exact hnot hba
      · exact hasymm hab hba
  · intro a c hac b
    rcases hac with hac | ⟨hnot, hac⟩
    · rcases hfirst.split hac b with hab | hbc
      · exact .inl (.inl hab)
      · exact .inr (.inl hbc)
    · by_cases hab : first a b
      · exact .inl (.inl hab)
      by_cases hbc : first b c
      · exact .inr (.inl hbc)
      have hba : ¬ first b a := by
        intro hba
        rcases hfirst.split hba c with h | h
        · exact hbc h
        · exact hnot h
      have hcb : ¬ first c b := by
        intro hcb
        rcases hfirst.split hcb a with h | h
        · exact hnot h
        · exact hab h
      rcases hsplit hab hba hbc hcb hac with h | h
      · exact .inl (.inr ⟨hba, h⟩)
      · exact .inr (.inr ⟨hcb, h⟩)

theorem thenBy_weak {first second : α → α → Prop} (hfirst : WeakOrder first)
    (hsecond : WeakOrder second) : WeakOrder (ThenBy first second) :=
  hfirst.thenBy hsecond.asymm fun _ _ _ _ hac => hsecond.split hac _

/-- Not coming after is a total preorder. -/
theorem total {lt : α → α → Prop} (h : WeakOrder lt) : Std.Total fun a b => ¬ lt b a := by
  constructor
  intro a b
  by_cases hab : lt a b
  · exact .inl (h.asymm hab)
  · exact .inr hab

theorem isTrans {lt : α → α → Prop} (h : WeakOrder lt) : IsTrans α fun a b => ¬ lt b a := by
  constructor
  intro a b c hba hcb hca
  rcases h.split hca b with hcb' | hba'
  · exact hcb hcb'
  · exact hba hba'

end WeakOrder

end ProtoScope.Library
