/-
A scan that changes nothing outside a window of positions.

A loop over positions which passes over all of them outside a window does what a loop over the
window alone does, up to the shift of the positions.
-/
import Mathlib.Data.List.Basic
import Mathlib.Tactic.Common

namespace ProtoScope.Library.WindowScan

variable {β : Type*}

/-- A scan over positions that are all passed over. -/
theorem foldl_skip {step : β → ℕ → β} {positions : List ℕ}
    (hskip : ∀ state, ∀ j ∈ positions, step state j = state) (state : β) :
    positions.foldl step state = state := by
  induction positions with
  | nil => rfl
  | cons j positions ih =>
    rw [List.foldl_cons, hskip state j List.mem_cons_self]
    exact ih fun state k hk => hskip state k (List.mem_cons_of_mem _ hk)

/-- Shifted positions of a scan whose state is shifted with them. -/
theorem foldl_shift {step inner : β → ℕ → β} {shift : β → β} {k : ℕ} {positions : List ℕ}
    (hstep : ∀ state, ∀ j ∈ positions, step (shift state) (j + k) = shift (inner state j))
    (state : β) :
    (positions.map (· + k)).foldl step (shift state) = shift (positions.foldl inner state) := by
  induction positions generalizing state with
  | nil => rfl
  | cons j positions ih =>
    rw [List.map_cons, List.foldl_cons, List.foldl_cons, hstep state j List.mem_cons_self]
    exact ih (fun state i hi => hstep state i (List.mem_cons_of_mem _ hi)) _

/-- **Only the window counts.** -/
theorem foldl_window {step inner : β → ℕ → β} {shift : β → β} {first size k width : ℕ}
    (hfits : k + width ≤ size)
    (hskip : ∀ state j, first ≤ j → j < first + size → (j < first + k ∨ first + k + width ≤ j) →
      step state j = state)
    (hstep : ∀ state j, first ≤ j → j < first + width →
      step (shift state) (j + k) = shift (inner state j))
    {start : β} (hstart : shift start = start) :
    (List.range' first size).foldl step start =
      shift ((List.range' first width).foldl inner start) := by
  have hsplit : List.range' first size = List.range' first k ++
      ((List.range' first width).map (· + k) ++
        List.range' (first + k + width) (size - k - width)) := by
    have hmap : (List.range' first width).map (· + k) = List.range' (first + k) width := by
      rw [Nat.add_comm first k, ← List.map_add_range']
      exact List.map_congr_left fun j _ => Nat.add_comm j k
    rw [hmap, List.range'_append_1, List.range'_append_1]
    congr 1
    omega
  have hmiddle : ((List.range' first width).map (· + k)).foldl step start =
      shift ((List.range' first width).foldl inner start) := by
    conv_lhs => rw [← hstart]
    refine foldl_shift (fun state j hj => ?_) start
    rw [List.mem_range'_1] at hj
    exact hstep state j hj.1 hj.2
  have hbefore : (List.range' first k).foldl step start = start := by
    refine foldl_skip (fun state j hj => ?_) start
    rw [List.mem_range'_1] at hj
    exact hskip state j hj.1 (by omega) (Or.inl hj.2)
  rw [hsplit, List.foldl_append, List.foldl_append, hbefore, hmiddle]
  refine foldl_skip (fun state j hj => ?_) _
  rw [List.mem_range'_1] at hj
  exact hskip state j (by omega) (by omega) (Or.inr hj.1)

end ProtoScope.Library.WindowScan
