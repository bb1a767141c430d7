/-
The byte ring buffer behind the stream parser.

`storage` is a circular array; the live bytes start at `head` and there are `size`
of them, wrapping past the end.  The two facts every operation relies on, that the
live bytes fit and that `head` points into a non-empty array, are fields of the
structure, so no operation can be handed a buffer that breaks them.

The source writes a block in at most two pieces, up to the end of the array and from
its start; `copyN` is one such piece.
-/
import Mathlib.Tactic

namespace ProtoScope.Scripting

/-- Overwrite `bytes.length` cells of `storage` from cell `start` on. -/
def copyN (storage : List UInt8) (start : Nat) (bytes : List UInt8) : List UInt8 :=
  storage.take start ++ bytes ++ storage.drop (start + bytes.length)

theorem length_copyN {storage bytes : List UInt8} {start : Nat}
    (h : start + bytes.length ≤ storage.length) :
    (copyN storage start bytes).length = storage.length := by
  simp only [copyN, List.length_append, List.length_take, List.length_drop]
  omega

/-- A circular byte array with its live window. -/
structure ByteRingBuffer where
  storage : List UInt8
  head : Nat
  size : Nat
  size_le : size ≤ storage.length
  head_lt : storage ≠ [] → head < storage.length

namespace ByteRingBuffer

/-- `ByteRingBuffer(capacity)`: an empty buffer over `capacity` zero bytes. -/
def ofCapacity (capacity : Nat) : ByteRingBuffer where
  storage := List.replicate capacity 0
  head := 0
  size := 0
  size_le := Nat.zero_le _
  head_lt := fun h => List.length_pos_iff.mpr h

def capacity (b : ByteRingBuffer) : Nat := b.storage.length

def empty (b : ByteRingBuffer) : Bool := b.size == 0

def reset (b : ByteRingBuffer) : ByteRingBuffer where
  storage := b.storage
  head := 0
  size := 0
  size_le := Nat.zero_le _
  head_lt := fun h => List.length_pos_iff.mpr h

/-- `at(index)`; `none` is the `std::out_of_range` exception. -/
def at? (b : ByteRingBuffer) (index : Nat) : Option UInt8 :=
  if b.size ≤ index || b.storage.isEmpty then none
  else b.storage[(b.head + index) % b.storage.length]?

/-- `slice(offset, count)`, cut at the last live byte. -/
def slice (b : ByteRingBuffer) (offset count : Nat) : List UInt8 :=
  if b.size ≤ offset || count == 0 then []
  else (List.range (min count (b.size - offset))).filterMap fun index => b.at? (offset + index)

/-- The live bytes, oldest first: what the buffer holds as a list. -/
def contents (b : ByteRingBuffer) : List UInt8 := b.slice 0 b.size

/-- The bytes `linearRead` shows, and whether the range wraps and had to be copied. -/
structure LinearReadView where
  data : List UInt8
  copied : Bool
deriving DecidableEq, Repr

def linearRead (b : ByteRingBuffer) (offset count : Nat) : LinearReadView :=
  if b.size ≤ offset || count == 0 || b.storage.isEmpty then ⟨[], false⟩
  else
    let actual := min count (b.size - offset)
    let start := (b.head + offset) % b.storage.length
    let contiguous := min actual (b.storage.length - start)
    if contiguous = actual then ⟨(b.storage.drop start).take actual, false⟩
    else ⟨(b.storage.drop start).take contiguous ++ b.storage.take (actual - contiguous), true⟩

/-! ### Reading a live byte -/

theorem storage_ne_nil {b : ByteRingBuffer} {i : Nat} (hi : i < b.size) : b.storage ≠ [] := by
  have := b.size_le
  exact List.length_pos_iff.mp (by omega)

theorem cell_lt {b : ByteRingBuffer} {i : Nat} (hi : i < b.size) (k : Nat) :
    k % b.storage.length < b.storage.length :=
  Nat.mod_lt _ (List.length_pos_iff.mpr (storage_ne_nil hi))

theorem at?_of_lt {b : ByteRingBuffer} {i : Nat} (hi : i < b.size) :
    b.at? i = b.storage[(b.head + i) % b.storage.length]? := by
  have hne : b.storage.isEmpty = false := by
    simpa using storage_ne_nil hi
  simp [at?, hne, Nat.not_le.mpr hi]

/-- A live byte exists. -/
theorem exists_at? {b : ByteRingBuffer} {i : Nat} (hi : i < b.size) : ∃ x, b.at? i = some x :=
  ⟨_, (at?_of_lt hi).trans (List.getElem?_eq_getElem (cell_lt hi _))⟩

theorem at?_of_le {b : ByteRingBuffer} {i : Nat} (hi : b.size ≤ i) : b.at? i = none := by
  simp [at?, hi]

/-- Mapping a total partial function over a range keeps one value per index. -/
theorem filterMap_range_getElem? {α : Type} (f : Nat → Option α) (n : Nat)
    (h : ∀ i < n, ∃ x, f i = some x) (i : Nat) :
    ((List.range n).filterMap f)[i]? = if i < n then f i else none := by
  induction n with
  | zero => simp
  | succ n ih =>
      obtain ⟨x, hx⟩ := h n (Nat.lt_succ_self n)
      have hlen : ((List.range n).filterMap f).length = n := by
        rw [List.length_filterMap_eq_countP, List.countP_eq_length.mpr]
        · simp
        · intro j hj
          obtain ⟨y, hy⟩ := h j (Nat.lt_succ_of_lt (List.mem_range.mp hj))
          simp [hy]
      rw [List.range_succ, List.filterMap_append]
      have ih' := ih fun j hj => h j (Nat.lt_succ_of_lt hj)
      rcases Nat.lt_trichotomy i n with hlt | heq | hgt
      · rw [List.getElem?_append_left (by omega), ih', if_pos hlt, if_pos (by omega)]
      · subst heq
        rw [List.getElem?_append_right (by omega), hlen, Nat.sub_self, if_pos (Nat.lt_succ_self _)]
        simp [hx]
      · rw [List.getElem?_eq_none (by simp [hlen, hx]; omega), if_neg (by omega)]

theorem getElem?_contents (b : ByteRingBuffer) (i : Nat) : b.contents[i]? = b.at? i := by
  by_cases hz : b.size = 0
  · rw [at?_of_le (by omega)]
    simp [contents, slice, hz]
  · have hs : b.contents = (List.range b.size).filterMap b.at? := by
      simp [contents, slice, hz]
    rw [hs, filterMap_range_getElem? _ _ fun j hj => exists_at? hj]
    by_cases hi : i < b.size
    · rw [if_pos hi]
    · rw [if_neg hi, at?_of_le (by omega)]

@[simp] theorem length_contents (b : ByteRingBuffer) : b.contents.length = b.size := by
  apply Nat.le_antisymm
  · rw [← List.getElem?_eq_none_iff, getElem?_contents, at?_of_le (Nat.le_refl _)]
  · rcases Nat.eq_zero_or_pos b.size with hz | hpos
    · omega
    · obtain ⟨x, hx⟩ := exists_at? (b := b) (i := b.size - 1) (by omega)
      rw [← getElem?_contents] at hx
      have := (List.getElem?_eq_some_iff.mp hx).1
      omega

/-! ### Growing, discarding and writing -/

/-- `ensureCapacity(capacity)`: grow and relinearise; never shrinks. -/
def ensureCapacity (b : ByteRingBuffer) (capacity : Nat) : ByteRingBuffer :=
  if h : capacity ≤ b.storage.length then b
  else
    { storage := copyN (List.replicate capacity 0) 0 b.contents
      head := 0
      size := b.size
      size_le := by
        have := b.size_le
        have hfit : 0 + b.contents.length ≤ (List.replicate capacity (0 : UInt8)).length := by
          rw [length_contents, List.length_replicate]
          omega
        rw [length_copyN hfit, List.length_replicate]
        omega
      head_lt := fun hne => List.length_pos_iff.mpr hne }

def discardFront (b : ByteRingBuffer) (count : Nat) : ByteRingBuffer :=
  let actual := min count b.size
  if actual = 0 ∨ b.storage = [] then b
  else
    { storage := b.storage
      head := (b.head + actual) % b.storage.length
      size := b.size - actual
      size_le := Nat.le_trans (Nat.sub_le _ _) b.size_le
      head_lt := fun hne => Nat.mod_lt _ (List.length_pos_iff.mpr hne) }

/-- The cells after `bytes` are written at the tail, in two pieces when they wrap. -/
def writeTail (b : ByteRingBuffer) (bytes : List UInt8) : List UInt8 :=
  let tail := (b.head + b.size) % b.storage.length
  let firstCount := min bytes.length (b.storage.length - tail)
  let first := copyN b.storage tail (bytes.take firstCount)
  if firstCount < bytes.length then copyN first 0 (bytes.drop firstCount) else first

theorem length_writeTail (b : ByteRingBuffer) (bytes : List UInt8)
    (hne : b.storage ≠ []) (hfit : b.size + bytes.length ≤ b.storage.length) :
    (b.writeTail bytes).length = b.storage.length := by
  have htail : (b.head + b.size) % b.storage.length < b.storage.length :=
    Nat.mod_lt _ (List.length_pos_iff.mpr hne)
  have hfirst : (copyN b.storage ((b.head + b.size) % b.storage.length)
      (bytes.take (min bytes.length
        (b.storage.length - (b.head + b.size) % b.storage.length)))).length
      = b.storage.length := by
    refine length_copyN ?_
    rw [List.length_take]
    omega
  simp only [writeTail]
  split
  · rw [length_copyN, hfirst]
    rw [List.length_drop, hfirst]
    omega
  · exact hfirst

/-- `appendContiguous`: its callers pass at most the free space, which is the hypothesis. -/
def appendContiguous (b : ByteRingBuffer) (bytes : List UInt8)
    (hfit : b.size + bytes.length ≤ b.storage.length) : ByteRingBuffer :=
  if h : bytes = [] ∨ b.storage = [] then b
  else
    have hlen := length_writeTail b bytes (fun hc => h (Or.inr hc)) hfit
    { storage := b.writeTail bytes
      head := b.head
      size := min b.storage.length (b.size + bytes.length)
      size_le := by rw [hlen]; exact Nat.min_le_left _ _
      head_lt := fun _ => by rw [hlen]; exact b.head_lt fun hc => h (Or.inr hc) }

theorem size_discardFront_le (b : ByteRingBuffer) (count : Nat) :
    (b.discardFront count).size = b.size - min count b.size ∧
      (b.discardFront count).storage = b.storage := by
  have := b.size_le
  simp only [discardFront]
  split
  · rename_i h
    rcases h with h | h
    · exact ⟨by omega, rfl⟩
    · rw [h] at this
      simp only [List.length_nil] at this
      exact ⟨by omega, rfl⟩
  · exact ⟨rfl, rfl⟩

/-- `append(bytes, dropOldest)`: the new buffer and the number of bytes dropped. -/
def append (b : ByteRingBuffer) (bytes : List UInt8) (dropOldest : Bool) : ByteRingBuffer × Nat :=
  let bufferCapacity := b.storage.length
  if bufferCapacity = 0 then (b, bytes.length)
  else if bytes = [] then (b, 0)
  else if dropOldest = false then
    let freeSpace := bufferCapacity - b.size
    let accepted := min freeSpace bytes.length
    (b.appendContiguous (bytes.take accepted) (by
      have := b.size_le
      rw [List.length_take]; omega), bytes.length - accepted)
  else if hbig : bufferCapacity ≤ bytes.length then
    -- The chunk alone fills the ring: only its newest window stays.
    let dropped := bytes.length - bufferCapacity + b.size
    (b.reset.appendContiguous (bytes.drop (bytes.length - bufferCapacity)) (by
      rw [List.length_drop]
      show 0 + (bytes.length - (bytes.length - b.storage.length)) ≤ b.storage.length
      omega), dropped)
  else if hover : bufferCapacity - b.size < bytes.length then
    let dropped := bytes.length - (bufferCapacity - b.size)
    ((b.discardFront dropped).appendContiguous bytes (by
      have := b.size_le
      obtain ⟨hsize, hstorage⟩ := size_discardFront_le b dropped
      rw [hsize, hstorage]
      omega), dropped)
  else (b.appendContiguous bytes (by have := b.size_le; omega), 0)

end ByteRingBuffer

end ProtoScope.Scripting
