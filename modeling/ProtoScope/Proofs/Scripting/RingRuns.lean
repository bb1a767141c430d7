/-
The ring buffer is a bounded list of bytes.

Whatever is done to a buffer, in whatever order, its live bytes are the items of the bounded
list to which the same is done, and both count the same bytes as dropped.  `head` and the
wrapping are not seen by anything that reads the buffer.
-/
import ProtoScope.Library.BoundedList
import ProtoScope.Proofs.Scripting.ByteRingBuffer

namespace ProtoScope.Scripting

open ProtoScope.Library (BoundedList)

/-- What the parser does to its buffer. -/
inductive RingOperation where
  | append (bytes : List UInt8) (dropOldest : Bool)
  | discardFront (count : Nat)
  | reset
  | ensureCapacity (capacity : Nat)

/-- The operation on the list, with the bytes it drops. -/
def RingOperation.onList (operation : RingOperation) (list : BoundedList UInt8) :
    BoundedList UInt8 × Nat :=
  match operation with
  | .append bytes true => list.addNewestFirst bytes
  | .append bytes false => list.addOldestFirst bytes
  | .discardFront count => (list.drop count, 0)
  | .reset => (list.clear, 0)
  | .ensureCapacity capacity => (list.grow capacity, 0)

/-- The operation on the buffer, with what `append` returns. -/
def RingOperation.onBuffer (operation : RingOperation) (b : ByteRingBuffer) :
    ByteRingBuffer × Nat :=
  match operation with
  | .append bytes dropOldest => b.append bytes dropOldest
  | .discardFront count => (b.discardFront count, 0)
  | .reset => (b.reset, 0)
  | .ensureCapacity capacity => (b.ensureCapacity capacity, 0)

/-- A run on anything, with the counts of its operations. -/
def runOperations {σ : Type} (apply : RingOperation → σ → σ × Nat) :
    List RingOperation → σ → σ × List Nat
  | [], state => (state, [])
  | operation :: rest, state =>
    let (state, dropped) := apply operation state
    let (state, counts) := runOperations apply rest state
    (state, dropped :: counts)

namespace ByteRingBuffer

/-- The buffer holds the items of the list and can hold as many. -/
structure Refines (b : ByteRingBuffer) (list : BoundedList UInt8) : Prop where
  contents : b.contents = list.items
  capacity : b.capacity = list.capacity

variable {b : ByteRingBuffer} {list : BoundedList UInt8}

theorem Refines.size (h : b.Refines list) : b.size = list.items.length := by
  rw [← h.contents, length_contents]

theorem refines_ofCapacity (capacity : Nat) :
    (ofCapacity capacity).Refines (.ofCapacity capacity) where
  contents := contents_ofCapacity capacity
  capacity := capacity_ofCapacity capacity

/-- **One operation** does the same to both and drops as many bytes. -/
theorem Refines.step (h : b.Refines list) (operation : RingOperation) :
    (operation.onBuffer b).1.Refines (operation.onList list).1 ∧
      (operation.onBuffer b).2 = (operation.onList list).2 := by
  cases operation with
  | append bytes dropOldest =>
    cases dropOldest with
    | false =>
      obtain ⟨hcontents, hdropped⟩ := append_keepOldest b bytes
      rw [h.contents, h.capacity, h.size] at hcontents
      rw [h.capacity, h.size] at hdropped
      exact ⟨⟨hcontents, (capacity_append b bytes false).trans h.capacity⟩, hdropped⟩
    | true =>
      obtain ⟨hcontents, hdropped⟩ := append_dropOldest b bytes
      rw [newest, List.length_append, h.contents, h.capacity] at hcontents
      rw [h.capacity, h.size] at hdropped
      exact ⟨⟨hcontents, (capacity_append b bytes true).trans h.capacity⟩, hdropped⟩
  | discardFront count =>
    refine ⟨⟨?_, (capacity_discardFront b count).trans h.capacity⟩, rfl⟩
    exact (contents_discardFront b count).trans (congrArg _ h.contents)
  | reset => exact ⟨⟨contents_reset b, (capacity_reset b).trans h.capacity⟩, rfl⟩
  | ensureCapacity capacity =>
    refine ⟨⟨(contents_ensureCapacity b capacity).trans h.contents, ?_⟩, rfl⟩
    rw [RingOperation.onBuffer, capacity_ensureCapacity, h.capacity]
    rfl

/-- **A run** does, and its counts are the same. -/
theorem Refines.run (h : b.Refines list) (operations : List RingOperation) :
    (runOperations RingOperation.onBuffer operations b).1.Refines
        (runOperations RingOperation.onList operations list).1 ∧
      (runOperations RingOperation.onBuffer operations b).2 =
        (runOperations RingOperation.onList operations list).2 := by
  induction operations generalizing b list with
  | nil => exact ⟨h, rfl⟩
  | cons operation rest ih =>
    obtain ⟨hstep, hdropped⟩ := h.step operation
    obtain ⟨hrest, hcounts⟩ := ih hstep
    exact ⟨hrest, congrArg₂ List.cons hdropped hcounts⟩

/-- What reads the buffer reads the list. -/
structure ReadsAs (b : ByteRingBuffer) (list : BoundedList UInt8) : Prop where
  capacity : b.capacity = list.capacity
  size : b.size = list.items.length
  empty : b.empty = list.items.isEmpty
  /-- `none` is an index out of range -/
  at? : ∀ index, b.at? index = list.items[index]?
  slice : ∀ offset count, b.slice offset count = (list.items.drop offset).take count
  linearRead : ∀ offset count,
    (b.linearRead offset count).data = (list.items.drop offset).take count

theorem Refines.readsAs (h : b.Refines list) :
    b.ReadsAs list where
  capacity := h.capacity
  size := h.size
  empty := by
    rw [ByteRingBuffer.empty, h.size]
    cases list.items <;> rfl
  at? index := by rw [← getElem?_contents, h.contents]
  slice offset count := by rw [slice_eq, h.contents]
  linearRead offset count := by rw [linearRead_data, h.contents]

/-- **The ring buffer refines a bounded list.**  After any operations from an empty buffer of
any capacity, every read shows the bytes of the list after the same operations, and every
append has dropped as many bytes. -/
theorem run_refines (capacity : Nat) (operations : List RingOperation) :
    (runOperations RingOperation.onBuffer operations (ofCapacity capacity)).1.ReadsAs
        (runOperations RingOperation.onList operations (.ofCapacity capacity)).1 ∧
      (runOperations RingOperation.onBuffer operations (ofCapacity capacity)).2 =
        (runOperations RingOperation.onList operations (.ofCapacity capacity)).2 := by
  obtain ⟨hrun, hcounts⟩ := (refines_ofCapacity capacity).run operations
  exact ⟨hrun.readsAs, hcounts⟩

end ByteRingBuffer

end ProtoScope.Scripting
