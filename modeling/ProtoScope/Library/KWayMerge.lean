/-
Merging any number of sorted lists.

The lists wait in a queue that keeps them in the order of their heads.  A turn takes the
first list, gives out its head, and puts what follows back at its place.  Each waiting
list is a pair of its head and its rest, so an exhausted list cannot wait.  What is given
out is a permutation of all waiting elements, and it is sorted when every list is; going
on from where a number of turns ended gives what is left after that many elements.
-/
import Mathlib.Data.List.Sort
import Mathlib.Tactic.Common

namespace ProtoScope.Library.KWayMerge

variable {α : Type}

/-- Everything that waits, list after list. -/
def items (queue : List (α × List α)) : List α := queue.flatMap fun entry => entry.1 :: entry.2

section Turns

variable (le : α → α → Prop) [DecidableRel le]

def push : List α → List (α × List α) → List (α × List α)
  | [], queue => queue
  | head :: rest, queue => queue.orderedInsert (fun a b => le a.1 b.1) (head, rest)

/-- One turn. -/
def advance : List (α × List α) → List (α × List α)
  | [] => []
  | (_, rest) :: queue => push le rest queue

theorem items_push (rows : List α) (queue : List (α × List α)) :
    (items (push le rows queue)).Perm (rows ++ items queue) := by
  cases rows with
  | nil => exact .refl _
  | cons head rest => exact (List.perm_orderedInsert _ _ _).flatMap_right _

theorem length_items_push (rows : List α) (queue : List (α × List α)) :
    (items (push le rows queue)).length = rows.length + (items queue).length := by
  rw [(items_push le rows queue).length_eq, List.length_append]

/-- What all turns give out. -/
def output : List (α × List α) → List α
  | [] => []
  | (head, rest) :: queue => head :: output (push le rest queue)
termination_by queue => (items queue).length
decreasing_by
  rw [length_items_push]
  simp [items]

/-- **Everything that waits is given out once.** -/
theorem output_perm (queue : List (α × List α)) : (output le queue).Perm (items queue) := by
  induction queue using output.induct le with
  | case1 =>
    rw [output]
    exact .refl _
  | case2 head rest queue ih =>
    rw [output]
    exact (ih.trans (items_push le rest queue)).cons head

/-! ### Turns -/

theorem output_advance (queue : List (α × List α)) :
    output le (advance le queue) = (output le queue).tail := by
  cases queue with
  | nil =>
    rw [advance, output]
    rfl
  | cons entry queue =>
    rw [output]
    rfl

/-- **After `n` turns the rest of the output is left.** -/
theorem output_iterate (queue : List (α × List α)) (n : ℕ) :
    output le ((advance le)^[n] queue) = (output le queue).drop n := by
  induction n with
  | zero => rfl
  | succ n ih =>
    rw [Function.iterate_succ_apply', output_advance, ih, List.tail_drop]

theorem output_eq_nil {queue : List (α × List α)} : output le queue = [] ↔ queue = [] := by
  cases queue with
  | nil => simp [output]
  | cons entry queue =>
    rw [output]
    simp

end Turns

/-! ### Order -/

section Order

variable (le : α → α → Prop)

/-- The queue is in the order of the heads, and every list is sorted. -/
structure Ordered (queue : List (α × List α)) : Prop where
  heads : queue.Pairwise fun a b => le a.1 b.1
  rows : ∀ entry ∈ queue, (entry.1 :: entry.2).Pairwise le

theorem Ordered.nil : Ordered le [] := ⟨.nil, fun _ hmem => absurd hmem List.not_mem_nil⟩

variable {le} [IsTrans α le]

/-- The head of the first list comes before everything else that waits. -/
theorem Ordered.first_le {head : α} {rest : List α} {queue : List (α × List α)}
    (h : Ordered le ((head, rest) :: queue)) :
    ∀ x ∈ rest ++ items queue, le head x := by
  intro x hx
  rcases List.mem_append.mp hx with hx | hx
  · exact List.rel_of_pairwise_cons (h.rows _ List.mem_cons_self) hx
  · obtain ⟨entry, hentry, hx⟩ := List.mem_flatMap.mp hx
    have hhead : le head entry.1 := List.rel_of_pairwise_cons h.heads hentry
    rcases List.mem_cons.mp hx with rfl | hx
    · exact hhead
    · exact IsTrans.trans _ _ _ hhead
        (List.rel_of_pairwise_cons (h.rows _ (List.mem_cons_of_mem _ hentry)) hx)

variable [Std.Total le] [DecidableRel le]

theorem Ordered.push {rows : List α} {queue : List (α × List α)} (hrows : rows.Pairwise le)
    (h : Ordered le queue) : Ordered le (push le rows queue) := by
  cases rows with
  | nil => exact h
  | cons head rest =>
    have total : Std.Total (fun a b : α × List α => le a.1 b.1) := ⟨fun a b => Std.Total.total a.1 b.1⟩
    have trans : IsTrans (α × List α) fun a b => le a.1 b.1 := ⟨fun _ _ _ => IsTrans.trans _ _ _⟩
    constructor
    · exact h.heads.orderedInsert _ _
    · intro entry hmem
      rcases (List.mem_orderedInsert _).mp hmem with rfl | hmem
      · exact hrows
      · exact h.rows entry hmem

theorem Ordered.next {head : α} {rest : List α} {queue : List (α × List α)}
    (h : Ordered le ((head, rest) :: queue)) : Ordered le (KWayMerge.push le rest queue) :=
  Ordered.push (h.rows _ List.mem_cons_self).of_cons
    ⟨h.heads.of_cons, fun entry hmem => h.rows entry (List.mem_cons_of_mem _ hmem)⟩

/-- **The output is sorted.** -/
theorem Ordered.output {queue : List (α × List α)} (h : Ordered le queue) :
    (KWayMerge.output le queue).Pairwise le := by
  induction queue using output.induct le with
  | case1 =>
    rw [KWayMerge.output]
    exact .nil
  | case2 head rest queue ih =>
    rw [KWayMerge.output]
    refine .cons ?_ (ih h.next)
    intro x hx
    exact h.first_le x ((items_push le rest queue).mem_iff.mp ((output_perm le _).mem_iff.mp hx))

end Order

end ProtoScope.Library.KWayMerge
