/-
A list that never holds more than its capacity.

What does not fit is dropped, either from the end of what is added or from the oldest end;
both operations say how much that was.  The capacity may grow and never shrinks.
-/
import Mathlib.Data.List.Basic

namespace ProtoScope.Library

structure BoundedList (α : Type) where
  capacity : ℕ
  items : List α
  fits : items.length ≤ capacity

namespace BoundedList

variable {α : Type}

def ofCapacity (capacity : ℕ) : BoundedList α where
  capacity := capacity
  items := []
  fits := Nat.zero_le _

/-- The oldest items stay: what fits of the chunk is added. -/
def addOldestFirst (list : BoundedList α) (chunk : List α) : BoundedList α × ℕ :=
  ({ list with
      items := list.items ++ chunk.take (list.capacity - list.items.length)
      fits := by
        rw [List.length_append, List.length_take]
        have := list.fits
        omega },
    chunk.length - (list.capacity - list.items.length))

/-- The newest items stay: the oldest are dropped until the rest fits. -/
def addNewestFirst (list : BoundedList α) (chunk : List α) : BoundedList α × ℕ :=
  ({ list with
      items := (list.items ++ chunk).drop (list.items.length + chunk.length - list.capacity)
      fits := by
        rw [List.length_drop, List.length_append]
        omega },
    list.items.length + chunk.length - list.capacity)

def drop (list : BoundedList α) (count : ℕ) : BoundedList α :=
  { list with
    items := list.items.drop count
    fits := by
      rw [List.length_drop]
      have := list.fits
      omega }

def clear (list : BoundedList α) : BoundedList α := ofCapacity list.capacity

def grow (list : BoundedList α) (capacity : ℕ) : BoundedList α :=
  { list with
    capacity := max list.capacity capacity
    fits := Nat.le_trans list.fits (Nat.le_max_left _ _) }

end BoundedList

end ProtoScope.Library
