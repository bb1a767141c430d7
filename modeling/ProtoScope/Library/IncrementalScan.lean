/-
Scanning a stream that arrives in pieces.

An incremental scanner looks at the window of bytes it holds and either emits something
and drops a non-empty prefix, or waits for more.  `run` scans one window to its end and
`feedAll` runs it on each piece in turn, carrying the residual.

When is the result independent of the pieces?  A decision taken on a short window must be
the decision the whole stream would have led to.  `Settled` asks this along the scan of
one stream, for the windows that can occur, and `feedAll_eq_run` is the answer; a
scanner whose decisions survive every extension is settled on every stream.
-/
import Mathlib.Data.List.Basic

namespace ProtoScope.Library

/-- What to do with a window: emit and drop a non-empty prefix, or wait. -/
structure Scanner (α ε : Type) where
  next : List α → Option (ε × Nat)
  next_bounds : ∀ {w : List α} {e : ε} {n : Nat}, next w = some (e, n) → 0 < n ∧ n ≤ w.length

namespace Scanner

variable {α ε : Type} (S : Scanner α ε)

/-- The scan on a bound of steps. -/
def runFuel : Nat → List α → List ε × List α
  | 0, w => ([], w)
  | fuel + 1, w =>
    match S.next w with
    | none => ([], w)
    | some (e, n) =>
      let rest := runFuel fuel (w.drop n)
      (e :: rest.1, rest.2)

/-- The scan of one window: what is emitted, and what is left. -/
def run (w : List α) : List ε × List α := S.runFuel w.length w

/-- The scan of each piece in turn, each after the residual of the one before. -/
def feedAll : List α → List (List α) → List ε × List α
  | w, [] => ([], w)
  | w, piece :: pieces =>
    let here := S.run (w ++ piece)
    let rest := feedAll here.2 pieces
    (here.1 ++ rest.1, rest.2)

theorem runFuel_of_none {w : List α} (h : S.next w = none) (fuel : Nat) :
    S.runFuel fuel w = ([], w) := by
  cases fuel with
  | zero => rfl
  | succ fuel => simp only [runFuel, h]

/-- Every step drops something, so as many steps as there are elements are enough. -/
theorem runFuel_eq_run {fuel : Nat} {w : List α} (h : w.length ≤ fuel) :
    S.runFuel fuel w = S.run w := by
  unfold run
  induction fuel using Nat.strongRecOn generalizing w with
  | _ fuel ih =>
      cases hn : S.next w with
      | none => rw [runFuel_of_none S hn, runFuel_of_none S hn]
      | some r =>
          obtain ⟨e, n⟩ := r
          obtain ⟨hpos, hle⟩ := S.next_bounds hn
          have hlen : (w.drop n).length < w.length := by
            rw [List.length_drop]
            omega
          obtain ⟨f, rfl⟩ : ∃ f, fuel = f + 1 := ⟨fuel - 1, by omega⟩
          obtain ⟨m, hm⟩ : ∃ m, w.length = m + 1 := ⟨w.length - 1, by omega⟩
          rw [hm]
          simp only [runFuel, hn]
          rw [ih f (by omega) (w := w.drop n) (by omega),
            ih m (by omega) (w := w.drop n) (by omega)]

theorem run_of_none {w : List α} (h : S.next w = none) : S.run w = ([], w) :=
  runFuel_of_none S h _

theorem run_of_some {w : List α} {e : ε} {n : Nat} (h : S.next w = some (e, n)) :
    S.run w = (e :: (S.run (w.drop n)).1, (S.run (w.drop n)).2) := by
  obtain ⟨hpos, hle⟩ := S.next_bounds h
  have hlen : (w.drop n).length ≤ w.length - 1 := by
    rw [List.length_drop]
    omega
  rw [← runFuel_eq_run S (show w.length ≤ w.length - 1 + 1 by omega)]
  simp only [runFuel, h]
  rw [runFuel_eq_run S hlen]

/-- The rule for a scan: what holds where it waits and is carried back over a step. -/
theorem run_induction {motive : List α → Prop} (wait : ∀ w, S.next w = none → motive w)
    (step : ∀ w e n, S.next w = some (e, n) → motive (w.drop n) → motive w) (w : List α) :
    motive w := by
  induction hlen : w.length using Nat.strongRecOn generalizing w with
  | _ len ih =>
      cases hn : S.next w with
      | none => exact wait w hn
      | some r =>
          obtain ⟨e, n⟩ := r
          obtain ⟨hpos, hle⟩ := S.next_bounds hn
          refine step w e n hn (ih (w.drop n).length ?_ (w.drop n) rfl)
          rw [List.length_drop]
          omega

/-- A scan ends where the scanner waits. -/
theorem next_residual (w : List α) : S.next (S.run w).2 = none := by
  induction w using S.run_induction with
  | wait w hn => rwa [run_of_none S hn]
  | step w e n hn ih => rwa [run_of_some S hn]

/-- What is left is no longer than the window. -/
theorem length_residual_le (w : List α) : (S.run w).2.length ≤ w.length := by
  induction w using S.run_induction with
  | wait w hn => exact Nat.le_of_eq (by rw [run_of_none S hn])
  | step w e n hn ih =>
      rw [run_of_some S hn]
      rw [List.length_drop] at ih
      exact Nat.le_trans ih (Nat.sub_le _ _)

/-- The same step taken `k` times over. -/
theorem run_replicate {e : ε} {k : Nat} {w : List α} (hk : k ≤ w.length)
    (h : ∀ i < k, S.next (w.drop i) = some (e, 1)) :
    S.run w = (List.replicate k e ++ (S.run (w.drop k)).1, (S.run (w.drop k)).2) := by
  induction k generalizing w with
  | zero => simp
  | succ k ih =>
      have h0 : S.next w = some (e, 1) := by simpa using h 0 (Nat.succ_pos k)
      rw [run_of_some S h0, ih (w := w.drop 1) (by rw [List.length_drop]; omega)]
      · rw [List.drop_drop, Nat.add_comm 1 k, List.replicate_succ, List.cons_append]
      · intro i hi
        rw [List.drop_drop, Nat.add_comm 1 i]
        exact h (i + 1) (by omega)

/-! ### Independence of the pieces -/

/-- Along the scan of `s`, no window of at most `limit` elements is decided differently. -/
inductive Settled (limit : Nat) : List α → Prop where
  | intro (s : List α)
      (here : ∀ w x r, s = w ++ x → w.length ≤ limit → S.next w = some r → S.next s = some r)
      (later : ∀ e n, S.next s = some (e, n) → Settled limit (s.drop n)) : Settled limit s

/-- A decision on a window that fits is kept however the window grows. -/
def Stable (limit : Nat) : Prop :=
  ∀ w x r, w.length ≤ limit → S.next w = some r → S.next (w ++ x) = some r

variable {S} {limit : Nat}

theorem Stable.settled (h : S.Stable limit) (s : List α) : S.Settled limit s := by
  induction s using S.run_induction with
  | wait s hn =>
      refine .intro s (fun w x r hs hw hr => ?_) fun e n hnext => by simp [hn] at hnext
      rw [hs]
      exact h w x r hw hr
  | step s e n hn ih =>
      refine .intro s (fun w x r hs hw hr => ?_) fun e' n' hnext => ?_
      · rw [hs]
        exact h w x r hw hr
      · rw [hn] at hnext
        cases hnext
        exact ih

/-- **Scanning a first piece does not disturb the scan of the whole.** -/
theorem Settled.run_append {w x : List α} (h : S.Settled limit (w ++ x)) (hw : w.length ≤ limit) :
    S.run (w ++ x) = ((S.run w).1 ++ (S.run ((S.run w).2 ++ x)).1, (S.run ((S.run w).2 ++ x)).2) ∧
      S.Settled limit ((S.run w).2 ++ x) := by
  induction w using S.run_induction with
  | wait w hn =>
      rw [run_of_none S hn]
      exact ⟨rfl, h⟩
  | step w e n hn ih =>
      obtain ⟨s, here, later⟩ := h
      have hnext := here w x (e, n) rfl hw hn
      have hle := (S.next_bounds hn).2
      have hdrop : (w ++ x).drop n = w.drop n ++ x := List.drop_append_of_le_length hle
      have hrest := later e n hnext
      rw [hdrop] at hrest
      obtain ⟨hrun, hsettled⟩ := ih hrest (by rw [List.length_drop]; omega)
      rw [run_of_some S hnext, hdrop, hrun, run_of_some S hn]
      exact ⟨rfl, hsettled⟩

/-- The windows a run over the pieces looks at. -/
def Fits (S : Scanner α ε) (limit : Nat) : List α → List (List α) → Prop
  | _, [] => True
  | w, piece :: pieces =>
    (w ++ piece).length ≤ limit ∧ Fits S limit (S.run (w ++ piece)).2 pieces

/-- **However the stream is cut, the pieces scan to what the whole stream scans to.** -/
theorem Settled.feedAll_eq_run {w : List α} {pieces : List (List α)}
    (h : S.Settled limit (w ++ pieces.flatten)) (hwait : S.next w = none)
    (hfits : S.Fits limit w pieces) : S.feedAll w pieces = S.run (w ++ pieces.flatten) := by
  induction pieces generalizing w with
  | nil => simp [feedAll, run_of_none S hwait]
  | cons piece pieces ih =>
      rw [List.flatten_cons, ← List.append_assoc] at h ⊢
      obtain ⟨hrun, hsettled⟩ := h.run_append hfits.1
      rw [feedAll, ih hsettled (S.next_residual _) hfits.2, hrun]

end Scanner

end ProtoScope.Library
