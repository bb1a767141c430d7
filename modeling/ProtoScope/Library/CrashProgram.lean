/-
Programs that write a durable state in atomic steps.

A program reads a durable state and a volatile memory, writes the durable state step by
step, and ends with a value or an error.  A crash keeps the steps made so far and loses the
memory.  `Triple` is the logic for such programs: besides what holds at the end it says what
holds after each step, hence whenever a crash cuts the program short.  Assertions also speak
about the history, the list of all steps made so far.
-/
import Mathlib.Data.List.Basic
import Mathlib.Data.List.Infix

namespace ProtoScope.Library

/-- A durable state, written by atomic steps. -/
class Durable (σ : Type) (Step : outParam Type) where
  apply : σ → Step → σ

/-- The durable state after some steps. -/
def replay {σ Step : Type} [Durable σ Step] (s : σ) (steps : List Step) : σ :=
  steps.foldl Durable.apply s

structure Outcome (Step μ ε α : Type) where
  steps : List Step
  memory : μ
  result : Except ε α

/-- A program over the durable state `σ` and the memory `μ`. -/
def Program (σ Step μ ε α : Type) : Type := μ → σ → Outcome Step μ ε α

namespace Program

variable {σ Step μ ε α β : Type}

protected def pure (a : α) : Program σ Step μ ε α := fun m _ => ⟨[], m, .ok a⟩

protected def bind [Durable σ Step] (p : Program σ Step μ ε α) (f : α → Program σ Step μ ε β) :
    Program σ Step μ ε β := fun m s =>
  let first := p m s
  match first.result with
  | .ok a =>
    let second := f a first.memory (replay s first.steps)
    { second with steps := first.steps ++ second.steps }
  | .error e => ⟨first.steps, first.memory, .error e⟩

instance [Durable σ Step] : Monad (Program σ Step μ ε) where
  pure := Program.pure
  bind := Program.bind

/-- One durable step. -/
def write (step : Step) : Program σ Step μ ε Unit := fun m _ => ⟨[step], m, .ok ()⟩

/-- The durable state. -/
def durable : Program σ Step μ ε σ := fun m s => ⟨[], m, .ok s⟩

def throw (e : ε) : Program σ Step μ ε α := fun m _ => ⟨[], m, .error e⟩

def ofExcept (r : Except ε α) : Program σ Step μ ε α := fun m _ => ⟨[], m, r⟩

def failIf (condition : Prop) [Decidable condition] (e : ε) : Program σ Step μ ε Unit := fun m _ =>
  ⟨[], m, if condition then .error e else .ok ()⟩

/-- Runs `cleanup` when `p` fails, and fails then as `p` did. -/
def onError [Durable σ Step] (p : Program σ Step μ ε α) (cleanup : Program σ Step μ ε Unit) :
    Program σ Step μ ε α := fun m s =>
  let first := p m s
  match first.result with
  | .ok _ => first
  | .error e =>
    let second := cleanup first.memory (replay s first.steps)
    ⟨first.steps ++ second.steps, second.memory, .error e⟩

end Program

/-! ### The logic -/

section Triple

variable {σ Step μ ε α β : Type} [Durable σ Step]

theorem replay_append (s : σ) (first second : List Step) :
    replay s (first ++ second) = replay (replay s first) second :=
  List.foldl_append

/-- From `pre`, `crash` holds after each step of the program, `post` when it returns a value
and `fail` when it ends with an error. -/
def Triple (pre : List Step → μ → σ → Prop) (p : Program σ Step μ ε α)
    (crash : List Step → σ → Prop) (post : α → List Step → μ → σ → Prop)
    (fail : ε → List Step → μ → σ → Prop) : Prop :=
  ∀ h m s, pre h m s →
    (∀ steps, steps ≠ [] → steps <+: (p m s).steps → crash (h ++ steps) (replay s steps)) ∧
      match (p m s).result with
      | .ok a => post a (h ++ (p m s).steps) (p m s).memory (replay s (p m s).steps)
      | .error e => fail e (h ++ (p m s).steps) (p m s).memory (replay s (p m s).steps)

namespace Triple

variable {pre pre' : List Step → μ → σ → Prop} {crash crash' : List Step → σ → Prop}
  {post post' : α → List Step → μ → σ → Prop} {fail fail' : ε → List Step → μ → σ → Prop}

theorem conseq {p : Program σ Step μ ε α} (hp : Triple pre p crash post fail)
    (hpre : ∀ h m s, pre' h m s → pre h m s) (hcrash : ∀ h s, crash h s → crash' h s)
    (hpost : ∀ a h m s, post a h m s → post' a h m s)
    (hfail : ∀ e h m s, fail e h m s → fail' e h m s) : Triple pre' p crash' post' fail' := by
  intro h m s hs
  obtain ⟨hsteps, hend⟩ := hp h m s (hpre h m s hs)
  refine ⟨fun steps hne hprefix => hcrash _ _ (hsteps steps hne hprefix), ?_⟩
  split at hend
  · exact hpost _ _ _ _ hend
  · exact hfail _ _ _ _ hend

theorem pure {a : α} (hpost : ∀ h m s, pre h m s → post a h m s) :
    Triple pre (Pure.pure a : Program σ Step μ ε α) crash post fail := by
  intro h m s hs
  refine ⟨?_, ?_⟩
  · intro steps hne hprefix
    exact absurd (List.prefix_nil.mp hprefix) hne
  · change post a (h ++ []) m s
    rw [List.append_nil]
    exact hpost h m s hs

theorem ofExcept {r : Except ε α} (hok : ∀ a h m s, r = .ok a → pre h m s → post a h m s)
    (herror : ∀ e h m s, r = .error e → pre h m s → fail e h m s) :
    Triple pre (Program.ofExcept r : Program σ Step μ ε α) crash post fail := by
  intro h m s hs
  refine ⟨?_, ?_⟩
  · intro steps hne hprefix
    exact absurd (List.prefix_nil.mp hprefix) hne
  · cases r with
    | ok a =>
      change post a (h ++ []) m s
      rw [List.append_nil]
      exact hok a h m s rfl hs
    | error e =>
      change fail e (h ++ []) m s
      rw [List.append_nil]
      exact herror e h m s rfl hs

theorem failIf {condition : Prop} [Decidable condition] {e : ε}
    {post : Unit → List Step → μ → σ → Prop}
    (hpost : ∀ h m s, ¬ condition → pre h m s → post () h m s)
    (hfail : ∀ h m s, condition → pre h m s → fail e h m s) :
    Triple pre (Program.failIf condition e : Program σ Step μ ε Unit) crash post fail := by
  apply ofExcept (r := if condition then .error e else .ok ())
  · intro a h m s hr hs
    split at hr
    · cases hr
    · rename_i hc
      exact hpost h m s hc hs
  · intro e' h m s hr hs
    split at hr
    · rename_i hc
      cases hr
      exact hfail h m s hc hs
    · cases hr

theorem durable {post : σ → List Step → μ → σ → Prop}
    (hpost : ∀ h m s, pre h m s → post s h m s) :
    Triple pre (Program.durable : Program σ Step μ ε σ) crash post fail := by
  intro h m s hs
  refine ⟨?_, ?_⟩
  · intro steps hne hprefix
    exact absurd (List.prefix_nil.mp hprefix) hne
  · change post s (h ++ []) m s
    rw [List.append_nil]
    exact hpost h m s hs

theorem write {step : Step} {post : Unit → List Step → μ → σ → Prop}
    (hcrash : ∀ h m s, pre h m s → crash (h ++ [step]) (Durable.apply s step))
    (hpost : ∀ h m s, pre h m s → post () (h ++ [step]) m (Durable.apply s step)) :
    Triple pre (Program.write step : Program σ Step μ ε Unit) crash post fail := by
  intro h m s hs
  refine ⟨?_, ?_⟩
  · intro steps hne hprefix
    obtain rfl : steps = [step] := by
      rcases List.prefix_cons_iff.mp hprefix with rfl | ⟨t, rfl, ht⟩
      · exact absurd rfl hne
      · rw [List.prefix_nil.mp ht]
    exact hcrash h m s hs
  · exact hpost h m s hs

/-- What holds after each step of two lists, the second after the first, holds after each
step of both together. -/
theorem after_each_append {h first second : List Step} {s : σ}
    (hfirst : ∀ steps, steps ≠ [] → steps <+: first → crash (h ++ steps) (replay s steps))
    (hsecond : ∀ steps, steps ≠ [] → steps <+: second →
      crash (h ++ first ++ steps) (replay (replay s first) steps)) :
    ∀ steps, steps ≠ [] → steps <+: first ++ second → crash (h ++ steps) (replay s steps) := by
  intro steps hne hprefix
  rcases List.prefix_or_prefix_of_prefix hprefix (List.prefix_append first second) with hle | hle
  · exact hfirst steps hne hle
  · obtain ⟨rest, rfl⟩ := hle
    by_cases hempty : rest = []
    · subst hempty
      rw [List.append_nil] at hne ⊢
      exact hfirst _ hne (List.prefix_refl _)
    · rw [← List.append_assoc, replay_append]
      exact hsecond rest hempty ((List.prefix_append_right_inj first).mp hprefix)

/-- The rule of sequence: what holds after the first program is what the second starts from,
and the steps of both count. -/
theorem bind {p : Program σ Step μ ε α} {f : α → Program σ Step μ ε β}
    {q : α → List Step → μ → σ → Prop} {post : β → List Step → μ → σ → Prop}
    (hp : Triple pre p crash q fail) (hf : ∀ a, Triple (q a) (f a) crash post fail) :
    Triple pre (p >>= f) crash post fail := by
  intro h m s hs
  obtain ⟨hsteps, hend⟩ := hp h m s hs
  change (∀ steps, steps ≠ [] → steps <+: (Program.bind p f m s).steps →
      crash (h ++ steps) (replay s steps)) ∧
    match (Program.bind p f m s).result with
    | .ok b => post b (h ++ (Program.bind p f m s).steps) (Program.bind p f m s).memory
        (replay s (Program.bind p f m s).steps)
    | .error e => fail e (h ++ (Program.bind p f m s).steps) (Program.bind p f m s).memory
        (replay s (Program.bind p f m s).steps)
  unfold Program.bind
  dsimp only
  cases hresult : (p m s).result with
  | error e =>
    rw [hresult] at hend
    exact ⟨hsteps, hend⟩
  | ok a =>
    rw [hresult] at hend
    obtain ⟨hsteps', hend'⟩ := hf a _ _ _ hend
    refine ⟨?_, ?_⟩
    · exact after_each_append hsteps hsteps'
    · rw [← List.append_assoc, replay_append]
      exact hend'

theorem onError {p : Program σ Step μ ε α} {cleanup : Program σ Step μ ε Unit}
    {middle : ε → List Step → μ → σ → Prop} (hp : Triple pre p crash post middle)
    (hcleanup : ∀ e, Triple (middle e) cleanup crash (fun _ => fail e) (fun _ => fail e)) :
    Triple pre (p.onError cleanup) crash post fail := by
  intro h m s hs
  obtain ⟨hsteps, hend⟩ := hp h m s hs
  unfold Program.onError
  dsimp only
  cases hresult : (p m s).result with
  | ok a =>
    rw [hresult] at hend
    dsimp only
    rw [hresult]
    exact ⟨hsteps, hend⟩
  | error e =>
    rw [hresult] at hend
    obtain ⟨hsteps', hend'⟩ := hcleanup e _ _ _ hend
    refine ⟨?_, ?_⟩
    · exact after_each_append hsteps hsteps'
    · dsimp only
      rw [← List.append_assoc, replay_append]
      split at hend' <;> exact hend'

/-! ### Sequences that begin with one action -/

section Then

variable {post : β → List Step → μ → σ → Prop}

theorem failIf_then {condition : Prop} [Decidable condition] {e : ε}
    {f : Unit → Program σ Step μ ε β} (hfail : condition → ∀ h m s, pre h m s → fail e h m s)
    (hnext : ¬ condition → Triple pre (f ()) crash post fail) :
    Triple pre (Program.failIf condition e >>= f) crash post fail := by
  apply bind (q := fun _ h m s => ¬ condition ∧ pre h m s)
  · apply failIf
    · intro h m s hc hs
      exact ⟨hc, hs⟩
    · intro h m s hc hs
      exact hfail hc h m s hs
  · intro u h m s hs
    exact hnext hs.1 h m s hs.2

theorem ofExcept_then {r : Except ε α} {f : α → Program σ Step μ ε β}
    (hfail : ∀ e, r = .error e → ∀ h m s, pre h m s → fail e h m s)
    (hnext : ∀ a, r = .ok a → Triple pre (f a) crash post fail) :
    Triple pre (Program.ofExcept r >>= f) crash post fail := by
  apply bind (q := fun a h m s => r = .ok a ∧ pre h m s)
  · apply ofExcept
    · intro a h m s hr hs
      exact ⟨hr, hs⟩
    · intro e h m s hr hs
      exact hfail e hr h m s hs
  · intro a h m s hs
    exact hnext a hs.1 h m s hs.2

theorem durable_then {d : σ} {f : σ → Program σ Step μ ε β} (hd : ∀ h m s, pre h m s → s = d)
    (hnext : Triple pre (f d) crash post fail) :
    Triple pre (Program.durable >>= f) crash post fail := by
  apply bind (q := fun s' h m s => s' = d ∧ pre h m s)
  · apply durable
    intro h m s hs
    exact ⟨hd h m s hs, hs⟩
  · intro s' h m s hs
    rw [hs.1]
    exact hnext h m s hs.2

theorem write_then {step : Step} {q : List Step → μ → σ → Prop}
    {f : Unit → Program σ Step μ ε β}
    (hcrash : ∀ h m s, pre h m s → crash (h ++ [step]) (Durable.apply s step))
    (hmiddle : ∀ h m s, pre h m s → q (h ++ [step]) m (Durable.apply s step))
    (hnext : Triple q (f ()) crash post fail) :
    Triple pre (Program.write step >>= f) crash post fail :=
  bind (q := fun _ => q) (write hcrash hmiddle) fun _ => hnext

end Then

end Triple

end Triple

end ProtoScope.Library
