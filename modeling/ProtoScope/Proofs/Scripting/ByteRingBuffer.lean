/-
The ring buffer holds a byte list.

`contents` reads the live window as a list, and every operation of the buffer is a
list operation on it: growing changes nothing, discarding drops a prefix, appending
appends what fits.  Nothing above this file speaks of `head` or of wrapping.

All the modular arithmetic is in `wrap`: both `head` and a live index are below the
capacity, so the cell of a live byte is `head + i` or `head + i - capacity`.
-/
import ProtoScope.Scripting.ByteRingBuffer

namespace ProtoScope.Scripting

theorem getElem?_copyN {storage bytes : List UInt8} {start : Nat}
    (h : start + bytes.length ≤ storage.length) (k : Nat) :
    (copyN storage start bytes)[k]?
      = if start ≤ k ∧ k < start + bytes.length then bytes[k - start]? else storage[k]? := by
  have hpre : (storage.take start).length = start := by
    rw [List.length_take]
    omega
  unfold copyN
  by_cases hlo : k < start
  · rw [if_neg (by omega), List.append_assoc, List.getElem?_append_left (by omega),
      List.getElem?_take_of_lt hlo]
  · by_cases hhi : k < start + bytes.length
    · rw [if_pos (by omega), List.append_assoc, List.getElem?_append_right (by omega), hpre,
        List.getElem?_append_left (by omega)]
    · rw [if_neg (by omega), List.getElem?_append_right (by simp [hpre]; omega),
        List.getElem?_drop]
      congr 1
      simp only [List.length_append, hpre]
      omega

namespace ByteRingBuffer

/-- The one fact about wrapping: a live cell is ahead of `head`, or one lap behind. -/
theorem wrap {head i c : Nat} (hh : head < c) (hi : i < c) :
    (head + i < c ∧ (head + i) % c = head + i) ∨
      (c ≤ head + i ∧ (head + i) % c = head + i - c) := by
  rcases Nat.lt_or_ge (head + i) c with hlt | hge
  · exact Or.inl ⟨hlt, Nat.mod_eq_of_lt hlt⟩
  · refine Or.inr ⟨hge, ?_⟩
    rw [Nat.mod_eq_sub_mod hge, Nat.mod_eq_of_lt (by omega)]

/-- Two buffers with the same live bytes hold the same list. -/
theorem contents_ext {b : ByteRingBuffer} {l : List UInt8} (hsize : b.size = l.length)
    (h : ∀ i, i < b.size → b.at? i = l[i]?) : b.contents = l := by
  refine List.ext_getElem? fun i => ?_
  rw [getElem?_contents]
  by_cases hi : i < b.size
  · exact h i hi
  · rw [at?_of_le (by omega), List.getElem?_eq_none (by omega)]

@[simp] theorem contents_ofCapacity (capacity : Nat) : (ofCapacity capacity).contents = [] := rfl

@[simp] theorem contents_reset (b : ByteRingBuffer) : b.reset.contents = [] := rfl

@[simp] theorem capacity_ofCapacity (n : Nat) : (ofCapacity n).capacity = n :=
  List.length_replicate

@[simp] theorem capacity_reset (b : ByteRingBuffer) : b.reset.capacity = b.capacity := rfl

/-! ### Reads -/

/-- Any read of the buffer is the same cut of its contents. -/
theorem slice_eq (b : ByteRingBuffer) (offset count : Nat) :
    b.slice offset count = (b.contents.drop offset).take count := by
  refine List.ext_getElem? fun i => ?_
  rw [List.getElem?_take, List.getElem?_drop, getElem?_contents]
  by_cases hz : b.size ≤ offset ∨ count = 0
  · have hnil : b.slice offset count = [] := by
      unfold slice
      rcases hz with h | h <;> simp [h]
    rw [hnil]
    rcases hz with h | h
    · simp [at?_of_le (show b.size ≤ offset + i by omega)]
    · simp [h]
  · have hs : b.slice offset count = (List.range (min count (b.size - offset))).filterMap
        fun index => b.at? (offset + index) := by
      unfold slice
      rw [if_neg (by simpa [Nat.not_le] using hz)]
    rw [hs, filterMap_range_getElem? _ _ fun j hj => exists_at? (by omega)]
    by_cases hi : i < min count (b.size - offset)
    · rw [if_pos hi, if_pos (by omega)]
    · rw [if_neg hi]
      by_cases hc : i < count
      · rw [if_pos hc, at?_of_le (by omega)]
      · rw [if_neg hc]

/-- A linear read shows the same bytes, whether or not it had to copy. -/
theorem linearRead_data (b : ByteRingBuffer) (offset count : Nat) :
    (b.linearRead offset count).data = (b.contents.drop offset).take count := by
  unfold linearRead
  by_cases hz : b.size ≤ offset ∨ count = 0 ∨ b.storage = []
  · rw [if_pos (by simpa [or_assoc] using hz)]
    rcases hz with h | h | h
    · rw [List.drop_of_length_le (by simpa using h)]
      simp
    · simp [h]
    · have := b.size_le
      rw [h] at this
      have hnil : b.contents = [] := List.eq_nil_of_length_eq_zero (by simpa using this)
      simp [hnil]
  · rw [if_neg (by simpa [or_assoc] using hz)]
    simp only [not_or, not_le] at hz
    obtain ⟨hoff, hcount, hne⟩ := hz
    have hsize := b.size_le
    have hhead := b.head_lt hne
    have hstart := wrap hhead (show offset < b.storage.length by omega)
    generalize (b.head + offset) % b.storage.length = start at hstart ⊢
    have hpart : ∀ i, i < min count (b.size - offset) →
        b.contents[offset + i]? = if i < b.storage.length - start then b.storage[start + i]?
          else b.storage[i - (b.storage.length - start)]? := by
      intro i hi
      rw [getElem?_contents, at?_of_lt (by omega)]
      have hcell := wrap hhead (show offset + i < b.storage.length by omega)
      split
      · congr 1
        omega
      · congr 1
        omega
    refine List.ext_getElem? fun i => ?_
    rw [List.getElem?_take, List.getElem?_drop]
    by_cases hi : i < min count (b.size - offset)
    · rw [if_pos (show i < count by omega), hpart i hi]
      by_cases hwhole : min (min count (b.size - offset)) (b.storage.length - start)
          = min count (b.size - offset)
      · rw [if_pos hwhole, if_pos (by omega)]
        simp only
        rw [List.getElem?_take_of_lt hi, List.getElem?_drop]
      · rw [if_neg hwhole]
        simp only
        by_cases hc : i < b.storage.length - start
        · rw [if_pos hc, List.getElem?_append_left (by simp; omega),
            List.getElem?_take_of_lt (by omega), List.getElem?_drop]
        · rw [if_neg hc, List.getElem?_append_right (by simp; omega),
            List.getElem?_take_of_lt (by simp; omega)]
          congr 1
          simp only [List.length_take, List.length_drop]
          omega
    · rw [show (if i < count then b.contents[offset + i]? else none) = none by
        by_cases hc : i < count
        · rw [if_pos hc, List.getElem?_eq_none (by simp; omega)]
        · rw [if_neg hc]]
      simp only
      split
      · exact List.getElem?_eq_none (by simp; omega)
      · exact List.getElem?_eq_none (by simp; omega)

/-- The whole window is the contents. -/
@[simp] theorem linearRead_all (b : ByteRingBuffer) : (b.linearRead 0 b.size).data = b.contents := by
  rw [linearRead_data, List.drop_zero, List.take_of_length_le (by simp)]

/-! ### Growing and discarding -/

theorem contents_ensureCapacity (b : ByteRingBuffer) (capacity : Nat) :
    (b.ensureCapacity capacity).contents = b.contents := by
  unfold ensureCapacity
  split
  · rfl
  · rename_i hgrow
    have hsize := b.size_le
    have hfit : 0 + b.contents.length ≤ (List.replicate capacity (0 : UInt8)).length := by
      rw [length_contents, List.length_replicate]
      omega
    refine contents_ext (length_contents b).symm fun i hi => ?_
    have hi' : i < b.size := hi
    rw [at?_of_lt hi]
    show (copyN (List.replicate capacity 0) 0 b.contents)[(0 + i) % _]? = _
    rw [length_copyN hfit, List.length_replicate, Nat.zero_add, Nat.mod_eq_of_lt (by omega),
      getElem?_copyN hfit, if_pos ⟨Nat.zero_le _, by simpa using hi'⟩, Nat.sub_zero]

theorem capacity_ensureCapacity (b : ByteRingBuffer) (n : Nat) :
    (b.ensureCapacity n).capacity = max b.capacity n := by
  unfold ensureCapacity capacity
  split
  · omega
  · show (copyN _ _ _).length = _
    have := b.size_le
    rw [length_copyN (by rw [length_contents, List.length_replicate]; omega),
      List.length_replicate]
    omega

theorem contents_discardFront (b : ByteRingBuffer) (count : Nat) :
    (b.discardFront count).contents = b.contents.drop count := by
  obtain ⟨hnew, hstorage⟩ := size_discardFront_le b count
  refine contents_ext (by rw [hnew, List.length_drop, length_contents]; omega) fun i hi => ?_
  rw [List.getElem?_drop, getElem?_contents, at?_of_lt hi, hstorage]
  rw [hnew] at hi
  have hne : b.storage ≠ [] := storage_ne_nil (show i < b.size by omega)
  rw [at?_of_lt (by omega)]
  unfold discardFront
  simp only
  split
  · rename_i h
    rcases h with h | h
    · congr 2
      omega
    · exact absurd h hne
  · rename_i h
    show b.storage[((b.head + min count b.size) % _ + i) % _]? = _
    rw [Nat.mod_add_mod]
    congr 2
    omega

@[simp] theorem capacity_discardFront (b : ByteRingBuffer) (count : Nat) :
    (b.discardFront count).capacity = b.capacity := by
  unfold capacity
  rw [(size_discardFront_le b count).2]

/-! ### Appending -/

/-- A cell after a tail write: the bytes just written, or what was there. -/
theorem getElem?_writeTail {b : ByteRingBuffer} {bytes : List UInt8} (hne : b.storage ≠ [])
    (hfit : b.size + bytes.length ≤ b.storage.length) {i : Nat}
    (hi : i < b.size + bytes.length) :
    (b.writeTail bytes)[(b.head + i) % b.storage.length]?
      = if i < b.size then b.storage[(b.head + i) % b.storage.length]? else bytes[i - b.size]? := by
  have hhead := b.head_lt hne
  have hcell := wrap hhead (show i < b.storage.length by omega)
  rcases Nat.eq_or_lt_of_le b.size_le with hfull | hroom
  · -- A full ring has nothing to append.
    have hnil : bytes = [] := List.eq_nil_of_length_eq_zero (by omega)
    subst hnil
    rw [if_pos (by simpa using hi)]
    simp [writeTail, copyN]
  have htail := wrap hhead hroom
  unfold writeTail
  generalize (b.head + b.size) % b.storage.length = tail at htail ⊢
  generalize (b.head + i) % b.storage.length = cell at hcell ⊢
  simp only
  have hfirst : tail + (bytes.take (min bytes.length (b.storage.length - tail))).length
      ≤ b.storage.length := by
    rw [List.length_take]
    omega
  split
  · rename_i hw
    rw [getElem?_copyN (by rw [length_copyN hfirst, List.length_drop]; omega),
      getElem?_copyN hfirst]
    simp only [List.length_drop, List.length_take]
    by_cases hold : i < b.size
    · rw [if_pos hold, if_neg (by omega), if_neg (by omega)]
    · rw [if_neg hold]
      by_cases hend : cell < tail
      · rw [if_pos (by omega), List.getElem?_drop]
        congr 1
        omega
      · rw [if_neg (by omega), if_pos (by omega), List.getElem?_take_of_lt (by omega)]
        congr 1
        omega
  · rename_i hw
    rw [getElem?_copyN hfirst]
    simp only [List.length_take]
    by_cases hold : i < b.size
    · rw [if_pos hold, if_neg (by omega)]
    · rw [if_neg hold, if_pos (by omega), List.getElem?_take_of_lt (by omega)]
      congr 1
      omega

theorem contents_appendContiguous (b : ByteRingBuffer) (bytes : List UInt8)
    (hfit : b.size + bytes.length ≤ b.storage.length) :
    (b.appendContiguous bytes hfit).contents = b.contents ++ bytes := by
  unfold appendContiguous
  split
  · rename_i h
    rcases h with h | h
    · rw [h, List.append_nil]
    · rw [h, List.length_nil] at hfit
      rw [List.eq_nil_of_length_eq_zero (show bytes.length = 0 by omega), List.append_nil]
  · rename_i h
    have hne : b.storage ≠ [] := fun hc => h (Or.inr hc)
    have hsz : min b.storage.length (b.size + bytes.length) = b.size + bytes.length := by omega
    refine contents_ext (by simpa using hsz) fun i hi => ?_
    have hi' : i < b.size + bytes.length := by
      rw [← hsz]
      exact hi
    rw [at?_of_lt hi]
    show (b.writeTail bytes)[(b.head + i) % (b.writeTail bytes).length]? = _
    rw [length_writeTail b bytes hne hfit, getElem?_writeTail hne hfit hi', List.getElem?_append,
      length_contents]
    split
    · rename_i hlt
      rw [getElem?_contents, at?_of_lt hlt]
    · rfl

@[simp] theorem capacity_appendContiguous (b : ByteRingBuffer) (bytes : List UInt8)
    (hfit : b.size + bytes.length ≤ b.storage.length) :
    (b.appendContiguous bytes hfit).capacity = b.capacity := by
  unfold appendContiguous
  split
  · rfl
  · rename_i h
    exact length_writeTail b bytes (fun hc => h (Or.inr hc)) hfit

@[simp] theorem capacity_append (b : ByteRingBuffer) (bytes : List UInt8) (dropOldest : Bool) :
    (b.append bytes dropOldest).1.capacity = b.capacity := by
  unfold append
  simp only
  split_ifs <;> simp

/-- What a full window keeps: the last `capacity` bytes. -/
def newest (capacity : Nat) (l : List UInt8) : List UInt8 := l.drop (l.length - capacity)

/-- **Keeping the oldest bytes**: what does not fit is dropped from the chunk's end. -/
theorem append_keepOldest (b : ByteRingBuffer) (bytes : List UInt8) :
    (b.append bytes false).1.contents = b.contents ++ bytes.take (b.capacity - b.size) ∧
      (b.append bytes false).2 = bytes.length - (b.capacity - b.size) := by
  have hsize := b.size_le
  unfold append capacity
  simp only [if_true]
  split_ifs with hcap hnil
  · simp only [hcap, Nat.zero_sub, List.take_zero, List.append_nil, Nat.sub_zero, and_self]
  · subst hnil
    simp
  · rw [contents_appendContiguous]
    refine ⟨?_, by omega⟩
    congr 1
    rcases Nat.le_total (b.storage.length - b.size) bytes.length with h | h
    · rw [Nat.min_eq_left h]
    · rw [Nat.min_eq_right h, List.take_of_length_le (Nat.le_refl _), List.take_of_length_le h]

/-- **Keeping the newest bytes**: what does not fit is dropped from the old end. -/
theorem append_dropOldest (b : ByteRingBuffer) (bytes : List UInt8) :
    (b.append bytes true).1.contents = newest b.capacity (b.contents ++ bytes) ∧
      (b.append bytes true).2 = b.size + bytes.length - b.capacity := by
  have hsize := b.size_le
  unfold append capacity newest
  simp only [List.length_append, length_contents, Bool.true_eq_false, if_false]
  split_ifs with hcap hnil hbig hover
  · have hz : b.size = 0 := by omega
    have hempty : b.contents = [] := List.eq_nil_of_length_eq_zero (by simpa using hz)
    rw [hempty]
    refine ⟨?_, by omega⟩
    rw [List.nil_append, List.drop_of_length_le (by omega)]
  · subst hnil
    refine ⟨?_, by simp; omega⟩
    rw [List.append_nil, List.length_nil, show b.size + 0 - b.storage.length = 0 by omega,
      List.drop_zero]
  · rw [contents_appendContiguous]
    refine ⟨?_, by omega⟩
    rw [contents_reset, List.nil_append,
      show b.size + bytes.length - b.storage.length
        = b.contents.length + (bytes.length - b.storage.length) by rw [length_contents]; omega,
      List.drop_append, List.drop_of_length_le (Nat.le_add_right _ _), Nat.add_sub_cancel_left,
      List.nil_append]
  · rw [contents_appendContiguous, contents_discardFront]
    refine ⟨?_, by omega⟩
    rw [show bytes.length - (b.storage.length - b.size) = b.size + bytes.length - b.storage.length
        by omega, List.drop_append, length_contents,
      show b.size + bytes.length - b.storage.length - b.size = 0 by omega, List.drop_zero]
  · rw [contents_appendContiguous]
    refine ⟨?_, by omega⟩
    rw [show b.size + bytes.length - b.storage.length = 0 by omega, List.drop_zero]

end ByteRingBuffer

end ProtoScope.Scripting
