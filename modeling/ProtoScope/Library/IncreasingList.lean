/-
Strictly increasing lists.

A list that grows at its end stays increasing when what is added lies above its last
entry, and the last entry bounds all others.  Sorting a list and dropping repetitions makes
it increasing, and does nothing to one that is increasing already.
-/
import Mathlib.Data.List.Sort
import Mathlib.Data.List.Dedup
import Mathlib.Order.Basic

namespace ProtoScope.Library.IncreasingList

variable {α : Type*} [LinearOrder α]

def Increasing (l : List α) : Prop := l.Pairwise (· < ·)

theorem Increasing.snoc {l : List α} (h : Increasing l) {x : α} (hx : ∀ y ∈ l, y < x) :
    Increasing (l ++ [x]) := by
  rw [Increasing, List.pairwise_append]
  refine ⟨h, List.pairwise_singleton _ _, ?_⟩
  intro y hy z hz
  rw [List.mem_singleton] at hz
  exact hz ▸ hx y hy

theorem Increasing.le_last {l : List α} (h : Increasing l) {last : α}
    (hlast : l.getLast? = some last) {x : α} (hx : x ∈ l) : x ≤ last := by
  obtain ⟨front, rfl⟩ := List.getLast?_eq_some_iff.mp hlast
  rw [Increasing, List.pairwise_append] at h
  rcases List.mem_append.mp hx with hfront | hend
  · exact (h.2.2 x hfront last (List.mem_singleton_self last)).le
  · exact (List.mem_singleton.mp hend).le

/-! ### Sorting -/

theorem increasing_dedup_sort (l : List α) : Increasing (l.insertionSort (· ≤ ·)).dedup := by
  have hsorted : (l.insertionSort (· ≤ ·)).dedup.Pairwise (· ≤ ·) :=
    (List.pairwise_insertionSort (· ≤ ·) l).sublist (List.dedup_sublist _)
  have hnodup : (l.insertionSort (· ≤ ·)).dedup.Nodup := List.nodup_dedup _
  exact hsorted.imp₂ (fun _ _ hle hne => lt_of_le_of_ne hle hne) hnodup

theorem Increasing.dedup_sort {l : List α} (h : Increasing l) :
    (l.insertionSort (· ≤ ·)).dedup = l := by
  have hsort : l.insertionSort (· ≤ ·) = l :=
    List.Pairwise.insertionSort_eq (h.imp fun hlt => hlt.le)
  have hnodup : l.Nodup := h.imp ne_of_lt
  rw [hsort, List.dedup_eq_self.mpr hnodup]

end ProtoScope.Library.IncreasingList
