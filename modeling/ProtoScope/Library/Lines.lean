/-
Text cut at separators, and text without the spaces around it.

`cut` finds the first separator.  A line that was written without one is found again when
the separator follows it, and `trim` leaves alone what begins and ends with no space.
-/
import Mathlib.Data.List.Basic
import Mathlib.Data.UInt
import Mathlib.Tactic.Common

namespace ProtoScope.Library.Lines

/-- What lies before the first separator and, if there is one, what lies after it. -/
def cut (separator : UInt8) : List UInt8 → List UInt8 × Option (List UInt8)
  | [] => ([], none)
  | byte :: bytes =>
    if byte = separator then ([], some bytes)
    else (byte :: (cut separator bytes).1, (cut separator bytes).2)

section Cut

variable {separator : UInt8}

theorem cut_cons_of_ne {byte : UInt8} (h : byte ≠ separator) (bytes : List UInt8) :
    cut separator (byte :: bytes) =
      (byte :: (cut separator bytes).1, (cut separator bytes).2) :=
  if_neg h

/-- **A part without the separator is found again before it.** -/
theorem cut_append {before : List UInt8} (h : separator ∉ before) (after : List UInt8) :
    cut separator (before ++ separator :: after) = (before, some after) := by
  induction before with
  | nil => exact if_pos rfl
  | cons byte before ih =>
    rw [List.mem_cons, not_or] at h
    rw [List.cons_append, cut_cons_of_ne (Ne.symm h.1), ih h.2]

theorem cut_of_not_mem {bytes : List UInt8} (h : separator ∉ bytes) :
    cut separator bytes = (bytes, none) := by
  induction bytes with
  | nil => rfl
  | cons byte bytes ih =>
    rw [List.mem_cons, not_or] at h
    rw [cut_cons_of_ne (Ne.symm h.1), ih h.2]

theorem not_mem_cut (bytes : List UInt8) : separator ∉ (cut separator bytes).1 := by
  induction bytes with
  | nil => exact List.not_mem_nil
  | cons byte bytes ih =>
    by_cases h : byte = separator
    · simp [cut, h]
    · simp [cut, h, ih, Ne.symm h]

theorem eq_of_cut {bytes before after : List UInt8} (h : cut separator bytes = (before, some after)) :
    bytes = before ++ separator :: after := by
  induction bytes generalizing before with
  | nil => simp [cut] at h
  | cons byte bytes ih =>
    by_cases hbyte : byte = separator
    · simp only [cut, if_pos hbyte, Prod.mk.injEq, Option.some.injEq] at h
      simp [← h.1, ← h.2, hbyte]
    · simp only [cut, if_neg hbyte, Prod.mk.injEq] at h
      rw [ih (Prod.ext rfl h.2), ← h.1, List.cons_append]

theorem eq_of_cut_none {bytes before : List UInt8} (h : cut separator bytes = (before, none)) :
    bytes = before ∧ separator ∉ bytes := by
  have hmem : separator ∉ bytes := by
    intro hmem
    obtain ⟨first, rest, rfl, hfirst⟩ := List.eq_append_cons_of_mem hmem
    rw [cut_append hfirst] at h
    cases (Prod.mk.inj h).2
  rw [cut_of_not_mem hmem] at h
  exact ⟨(Prod.mk.inj h).1, hmem⟩

theorem length_of_cut {bytes before after : List UInt8}
    (h : cut separator bytes = (before, some after)) : after.length < bytes.length := by
  rw [eq_of_cut h, List.length_append, List.length_cons]
  omega

end Cut

/-- `std::isspace` in the "C" locale -/
def isSpace (byte : UInt8) : Bool := byte == 32 || (9 ≤ byte && byte ≤ 13)

def trim (text : List UInt8) : List UInt8 :=
  ((text.dropWhile isSpace).reverse.dropWhile isSpace).reverse

/-- A text that is empty or begins and ends with no space. -/
def Trimmed (text : List UInt8) : Prop :=
  (∀ byte ∈ text.head?, isSpace byte = false) ∧ ∀ byte ∈ text.getLast?, isSpace byte = false

theorem dropWhile_eq_self {text : List UInt8} (h : ∀ byte ∈ text.head?, isSpace byte = false) :
    text.dropWhile isSpace = text := by
  induction text with
  | nil => rfl
  | cons byte bytes =>
    rw [List.dropWhile_cons_of_neg]
    simpa using h byte rfl

theorem trim_eq_self {text : List UInt8} (h : Trimmed text) : trim text = text := by
  unfold trim
  rw [dropWhile_eq_self h.1, dropWhile_eq_self, List.reverse_reverse]
  rw [List.head?_reverse]
  exact h.2

theorem trim_cons_of_space {byte : UInt8} (h : isSpace byte = true) (text : List UInt8) :
    trim (byte :: text) = trim text := by
  unfold trim
  rw [List.dropWhile_cons_of_pos]
  exact h

/-- A space at the end goes with the others. -/
theorem trim_append_space {byte : UInt8} (h : isSpace byte = true) (text : List UInt8) :
    trim (text ++ [byte]) = trim text := by
  unfold trim
  rw [List.dropWhile_append]
  split
  · rename_i hempty
    rw [List.isEmpty_iff] at hempty
    rw [hempty, List.dropWhile_cons_of_pos h]
    rfl
  · rw [List.reverse_append, List.reverse_singleton, List.singleton_append,
      List.dropWhile_cons_of_pos h]

/-- Text without any space is trimmed. -/
theorem trimmed_of_forall {text : List UInt8} (h : ∀ byte ∈ text, isSpace byte = false) :
    Trimmed text :=
  ⟨fun byte hbyte => h byte (List.mem_of_mem_head? hbyte),
    fun byte hbyte => h byte (List.mem_of_mem_getLast? hbyte)⟩

end ProtoScope.Library.Lines
