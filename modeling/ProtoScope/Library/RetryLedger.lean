/-
The books of a component that takes requests and reports on them.

A request is accepted and held until a final report about it is given.  A report may
instead announce a retry, after which the request is held on with its next attempt.  Kept
this way the books balance: for every key, what was accepted was reported finally, is
still held, or was lost, by announcing a retry of a request that is then let go.  And where
nothing was lost, every announced retry is still to come or has itself been reported on.
-/
import Mathlib.Data.Multiset.Count
import Mathlib.Data.Multiset.MapFold
import Mathlib.Logic.Relation
import Mathlib.Tactic.Common

namespace ProtoScope.Library.RetryLedger

/-- How requests `ρ` and reports `ε` are told apart. -/
structure Reporting (ρ ε κ : Type*) where
  key : ρ → κ
  attempt : ρ → ℕ
  about : ε → κ
  attemptOf : ε → ℕ
  final : ε → Bool
  retry : ε → Bool

structure Ledger (ρ ε κ : Type*) where
  held : Multiset ρ
  reported : List ε
  accepted : Multiset κ
  lost : Multiset κ

variable {ρ ε κ : Type*} (R : Reporting ρ ε κ)

/-- The report `e` is about the attempt the request `r` stands at. -/
def Reporting.Reports (e : ε) (r : ρ) : Prop :=
  R.about e = R.key r ∧ R.attemptOf e = R.attempt r

inductive Move : Ledger ρ ε κ → Ledger ρ ε κ → Prop
  | accept (held : Multiset ρ) (reported : List ε) (accepted lost : Multiset κ) (r : ρ) :
    Move ⟨held, reported, accepted, lost⟩ ⟨r ::ₘ held, reported, R.key r ::ₘ accepted, lost⟩
  | finish (held : Multiset ρ) (reported : List ε) (accepted lost : Multiset κ) (r : ρ) (e : ε)
      (he : R.Reports e r) (hfinal : R.final e = true) (hretry : R.retry e = false) :
    Move ⟨r ::ₘ held, reported, accepted, lost⟩ ⟨held, reported ++ [e], accepted, lost⟩
  | note (held : Multiset ρ) (reported : List ε) (accepted lost : Multiset κ) (e : ε)
      (hfinal : R.final e = false) (hretry : R.retry e = false) :
    Move ⟨held, reported, accepted, lost⟩ ⟨held, reported ++ [e], accepted, lost⟩
  | retry (held : Multiset ρ) (reported : List ε) (accepted lost : Multiset κ) (r r' : ρ) (e : ε)
      (he : R.Reports e r) (hfinal : R.final e = false) (hkey : R.key r' = R.key r)
      (hattempt : R.attempt r' = R.attempt r + 1) :
    Move ⟨r ::ₘ held, reported, accepted, lost⟩ ⟨r' ::ₘ held, reported ++ [e], accepted, lost⟩
  | lose (held : Multiset ρ) (reported : List ε) (accepted lost : Multiset κ) (r : ρ) (e : ε)
      (hfinal : R.final e = false) :
    Move ⟨r ::ₘ held, reported, accepted, lost⟩
      ⟨held, reported ++ [e], accepted, R.key r ::ₘ lost⟩

abbrev Moves : Ledger ρ ε κ → Ledger ρ ε κ → Prop := Relation.ReflTransGen (Move R)

section Balance

variable [DecidableEq κ]

/-- How many final reports there are about a key. -/
def finals (reported : List ε) (k : κ) : ℕ :=
  reported.countP fun e => R.final e && decide (R.about e = k)

def holds (held : Multiset ρ) (k : κ) : ℕ := (held.map R.key).count k

/-- Every accepted key was reported finally, is held, or was lost. -/
def Balanced (l : Ledger ρ ε κ) : Prop :=
  ∀ k, l.accepted.count k = finals R l.reported k + holds R l.held k + l.lost.count k

theorem finals_append (reported : List ε) (e : ε) (k : κ) :
    finals R (reported ++ [e]) k =
      finals R reported k + if R.final e = true ∧ R.about e = k then 1 else 0 := by
  simp [finals, List.countP_append, List.countP_singleton]

theorem holds_cons (r : ρ) (held : Multiset ρ) (k : κ) :
    holds R (r ::ₘ held) k = holds R held k + if k = R.key r then 1 else 0 := by
  rw [holds, Multiset.map_cons, Multiset.count_cons]
  rfl

/-- **Every move keeps the balance.** -/
theorem Move.balanced {l l' : Ledger ρ ε κ} (h : Move R l l') (hl : Balanced R l) :
    Balanced R l' := by
  intro k
  have hk := hl k
  cases h with
  | accept held reported accepted lost r =>
    dsimp only at hk ⊢
    rw [Multiset.count_cons, holds_cons]
    omega
  | finish held reported accepted lost r e he hfinal hretry =>
    dsimp only at hk ⊢
    rw [holds_cons] at hk
    rw [finals_append]
    simp only [hfinal, true_and, he.1, eq_comm (a := R.key r)]
    omega
  | note held reported accepted lost e hfinal hretry =>
    dsimp only at hk ⊢
    rw [finals_append]
    simp only [hfinal, Bool.false_eq_true, false_and, if_false]
    omega
  | retry held reported accepted lost r r' e he hfinal hkey hattempt =>
    dsimp only at hk ⊢
    rw [holds_cons] at hk ⊢
    rw [finals_append, hkey]
    simp only [hfinal, Bool.false_eq_true, false_and, if_false]
    omega
  | lose held reported accepted lost r e hfinal =>
    dsimp only at hk ⊢
    rw [holds_cons] at hk
    rw [finals_append, Multiset.count_cons]
    simp only [hfinal, Bool.false_eq_true, false_and, if_false]
    omega

theorem Moves.balanced {l l' : Ledger ρ ε κ} (h : Moves R l l') (hl : Balanced R l) :
    Balanced R l' := by
  induction h with
  | refl => exact hl
  | tail _ h ih => exact h.balanced R ih

end Balance

section Honour

/-- Every announced retry is held with its next attempt, or that attempt was reported on. -/
def Honoured (l : Ledger ρ ε κ) : Prop :=
  ∀ e ∈ l.reported, R.retry e = true →
    (∃ r ∈ l.held, R.key r = R.about e ∧ R.attempt r = R.attemptOf e + 1) ∨
      ∃ e' ∈ l.reported, R.about e' = R.about e ∧ R.attemptOf e' = R.attemptOf e + 1

variable {R}

/-- A held request stays held, or the report that replaces it is about its attempt. -/
theorem Honoured.extend {l l' : Ledger ρ ε κ} (hl : Honoured R l)
    (hreported : ∀ e ∈ l.reported, e ∈ l'.reported)
    (hheld : ∀ r ∈ l.held, r ∈ l'.held ∨ ∃ e ∈ l'.reported, R.Reports e r)
    (hnew : ∀ e ∈ l'.reported, R.retry e = true → e ∈ l.reported ∨
      ∃ r ∈ l'.held, R.key r = R.about e ∧ R.attempt r = R.attemptOf e + 1) : Honoured R l' := by
  intro e he hretry
  rcases hnew e he hretry with hold | hnew
  · rcases hl e hold hretry with ⟨r, hr, hkey, hattempt⟩ | ⟨e', he', h⟩
    · rcases hheld r hr with hr' | ⟨e', he', habout, hattempt'⟩
      · exact .inl ⟨r, hr', hkey, hattempt⟩
      · exact .inr ⟨e', he', habout.trans hkey, hattempt'.trans hattempt⟩
    · exact .inr ⟨e', hreported e' he', h⟩
  · exact .inl hnew

/-- **Every move but a loss honours the retries announced so far.** -/
theorem Move.honoured {l l' : Ledger ρ ε κ} (h : Move R l l') (hlost : l'.lost = 0)
    (hl : Honoured R l) : Honoured R l' := by
  cases h with
  | accept held reported accepted lost r =>
    refine hl.extend (fun e he => he) ?_ (fun e he _ => .inl he)
    intro r' hr'
    exact .inl (Multiset.mem_cons_of_mem hr')
  | finish held reported accepted lost r e he hfinal hretry =>
    refine hl.extend (fun e he => List.mem_append_left _ he) ?_ ?_
    · intro r' hr'
      rcases Multiset.mem_cons.mp hr' with rfl | hr'
      · exact .inr ⟨e, List.mem_append_right _ (List.mem_singleton_self e), he⟩
      · exact .inl hr'
    · intro e' he' hretry'
      rcases List.mem_append.mp he' with he' | he'
      · exact .inl he'
      · rw [List.mem_singleton.mp he', hretry] at hretry'
        cases hretry'
  | note held reported accepted lost e hfinal hretry =>
    refine hl.extend (fun e he => List.mem_append_left _ he) (fun r hr => .inl hr) ?_
    intro e' he' hretry'
    rcases List.mem_append.mp he' with he' | he'
    · exact .inl he'
    · rw [List.mem_singleton.mp he', hretry] at hretry'
      cases hretry'
  | retry held reported accepted lost r r' e he hfinal hkey hattempt =>
    refine hl.extend (fun e he => List.mem_append_left _ he) ?_ ?_
    · intro r'' hr''
      rcases Multiset.mem_cons.mp hr'' with rfl | hr''
      · exact .inr ⟨e, List.mem_append_right _ (List.mem_singleton_self e), he⟩
      · exact .inl (Multiset.mem_cons_of_mem hr'')
    · intro e' he' _
      rcases List.mem_append.mp he' with he' | he'
      · exact .inl he'
      · refine .inr ⟨r', Multiset.mem_cons_self r' held, ?_⟩
        rw [List.mem_singleton.mp he', hkey, hattempt, he.1, he.2]
        exact ⟨rfl, rfl⟩
  | lose held reported accepted lost r e hfinal =>
    exact absurd hlost (Multiset.cons_ne_zero)

/-- What was lost stays lost. -/
theorem Move.lost_le {l l' : Ledger ρ ε κ} (h : Move R l l') : l.lost ≤ l'.lost := by
  cases h with
  | lose held reported accepted lost r e hfinal => exact Multiset.le_cons_self _ _
  | _ => exact le_refl _

theorem Moves.honoured {l l' : Ledger ρ ε κ} (h : Moves R l l') (hlost : l'.lost = 0)
    (hl : Honoured R l) : Honoured R l' := by
  induction h with
  | refl => exact hl
  | tail _ h ih =>
    have hle := h.lost_le
    rw [hlost, Multiset.le_zero] at hle
    exact h.honoured hlost (ih hle)

end Honour

end ProtoScope.Library.RetryLedger
