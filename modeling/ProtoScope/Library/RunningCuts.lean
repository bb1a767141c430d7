/-
A loop that cuts a range of positions into consecutive parts.

Every round begins where the one before it ended, chooses where it ends, and may put out something
for the part between the two.  What the whole loop puts out is what each part alone puts out, and
as long as no round ends before it begins the parts are consecutive: no position is dropped and none
is in two of them.
-/
import Mathlib.Algebra.BigOperators.Group.List.Basic
import Mathlib.Algebra.GroupWithZero.Nat
import Mathlib.Tactic.Common

namespace ProtoScope.Library.RunningCuts

variable {β : Type*}

/-- Where round `round` begins: `next left round` is where it ends if it begins at `left`. -/
def cut (next : ℕ → ℕ → ℕ) (begin : ℕ) : ℕ → ℕ
  | 0 => begin
  | round + 1 => next (cut next begin round) round

/-- One round. -/
def visit (next : ℕ → ℕ → ℕ) (emit : ℕ → ℕ → ℕ → Option β) (state : ℕ × List β) (round : ℕ) :
    ℕ × List β :=
  (next state.1 round, state.2 ++ (emit round state.1 (next state.1 round)).toList)

variable {next : ℕ → ℕ → ℕ} {emit : ℕ → ℕ → ℕ → Option β} {begin : ℕ}

/-- **The loop puts out what its parts put out.** -/
theorem foldl_visit (rounds : ℕ) :
    (List.range rounds).foldl (visit next emit) (begin, []) =
      (cut next begin rounds, (List.range rounds).filterMap fun round =>
        emit round (cut next begin round) (cut next begin (round + 1))) := by
  induction rounds with
  | zero => rfl
  | succ rounds ih =>
    rw [List.range_succ, List.foldl_append, ih, List.filterMap_append]
    cases hemit : emit rounds (cut next begin rounds) (next (cut next begin rounds) rounds) <;>
      simp [visit, cut, hemit]

section Ascending

variable {rounds : ℕ}

/-- No round ends before it begins. -/
def Ascending (next : ℕ → ℕ → ℕ) (begin rounds : ℕ) : Prop :=
  ∀ round < rounds, cut next begin round ≤ cut next begin (round + 1)

theorem Ascending.le (h : Ascending next begin rounds) {first last : ℕ} (hle : first ≤ last)
    (hlast : last ≤ rounds) : cut next begin first ≤ cut next begin last := by
  induction hle with
  | refl => exact Nat.le_refl _
  | @step last _ ih => exact Nat.le_trans (ih (by omega)) (h last (by omega))

/-- Every position of the range is in a part. -/
theorem exists_part {last position : ℕ} (hbegin : begin ≤ position)
    (h : position < cut next begin last) :
    ∃ round < last, cut next begin round ≤ position ∧ position < cut next begin (round + 1) := by
  induction last with
  | zero => exact absurd h (Nat.not_lt.mpr hbegin)
  | succ last ih =>
    by_cases hbefore : position < cut next begin last
    · obtain ⟨round, hlt, hpart⟩ := ih hbefore
      exact ⟨round, Nat.lt_succ_of_lt hlt, hpart⟩
    · exact ⟨last, Nat.lt_succ_self last, Nat.le_of_not_lt hbefore, h⟩

/-- No position is in two parts. -/
theorem Ascending.part_unique (h : Ascending next begin rounds) {first second position : ℕ}
    (hfirst : first < rounds) (hsecond : second < rounds)
    (hin : cut next begin first ≤ position ∧ position < cut next begin (first + 1))
    (hin' : cut next begin second ≤ position ∧ position < cut next begin (second + 1)) :
    first = second := by
  rcases Nat.lt_trichotomy first second with hlt | heq | hgt
  · have hle : cut next begin (first + 1) ≤ cut next begin second :=
      h.le hlt (Nat.le_of_lt hsecond)
    omega
  · exact heq
  · have hle : cut next begin (second + 1) ≤ cut next begin first :=
      h.le hgt (Nat.le_of_lt hfirst)
    omega

/-- Consecutive parts, none of them empty, that lead from one position to another. -/
def Consecutive : ℕ → List (ℕ × ℕ) → ℕ → Prop
  | left, [], right => left = right
  | left, part :: rest, right => part.1 = left ∧ left < part.2 ∧ Consecutive part.2 rest right

theorem Consecutive.snoc {left middle right : ℕ} {parts : List (ℕ × ℕ)}
    (h : Consecutive left parts middle) (hlt : middle < right) :
    Consecutive left (parts ++ [(middle, right)]) right := by
  induction parts generalizing left with
  | nil =>
    obtain rfl : left = middle := h
    exact ⟨rfl, hlt, rfl⟩
  | cons part rest ih => exact ⟨h.1, h.2.1, ih h.2.2⟩

/-- The part a round cuts off, unless it is empty. -/
def part? (next : ℕ → ℕ → ℕ) (begin round : ℕ) : Option (ℕ × ℕ) :=
  if cut next begin round = cut next begin (round + 1) then none
  else some (cut next begin round, cut next begin (round + 1))

/-- **The parts that are not empty are consecutive.** -/
theorem Ascending.consecutive (h : Ascending next begin rounds) :
    Consecutive begin ((List.range rounds).filterMap (part? next begin))
      (cut next begin rounds) := by
  induction rounds with
  | zero => exact rfl
  | succ rounds ih =>
    have hbefore := ih fun round hlt => h round (by omega)
    have hlast := h rounds (Nat.lt_succ_self _)
    rw [List.range_succ, List.filterMap_append]
    by_cases heq : cut next begin rounds = cut next begin (rounds + 1)
    · have hnone : part? next begin rounds = none := if_pos heq
      rw [← heq]
      simpa [hnone] using hbefore
    · have hsome : part? next begin rounds =
          some (cut next begin rounds, cut next begin (rounds + 1)) := if_neg heq
      simpa [hsome] using hbefore.snoc (by omega)

/-- The sizes of the parts add up to that of the range. -/
theorem Ascending.sum (h : Ascending next begin rounds) :
    ((List.range rounds).map fun round =>
      cut next begin (round + 1) - cut next begin round).sum = cut next begin rounds - begin := by
  induction rounds with
  | zero => exact (Nat.sub_self begin).symm
  | succ rounds ih =>
    have hrest : Ascending next begin rounds := fun round hlt => h round (by omega)
    have hbegin : begin ≤ cut next begin rounds := hrest.le (Nat.zero_le _) (Nat.le_refl _)
    have hlast := h rounds (Nat.lt_succ_self _)
    rw [List.range_succ, List.map_append, List.sum_append, ih hrest]
    simp only [List.map_cons, List.map_nil, List.sum_cons, List.sum_nil]
    omega

end Ascending

end ProtoScope.Library.RunningCuts
