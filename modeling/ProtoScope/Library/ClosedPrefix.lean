/-
Cutting a list where no key is on both sides.

A cut is moved behind the last element whose key is known from before the cut, until there is
no such element.  Each pass can bring in new keys, so one pass is not enough; but a cut never
moves past one that separates the keys, so the first that does is the least.
-/
import Mathlib.Data.List.Induction
import Mathlib.Logic.Function.Iterate
import Mathlib.Order.Basic
import Mathlib.Order.Nat
import Mathlib.Tactic.Common

namespace ProtoScope.Library

variable {α κ : Type} [DecidableEq κ]

/-- One pass: the cut moves behind the last element whose key is known. -/
def extendCut (key : α → κ) (xs : List α) (count : ℕ) : ℕ :=
  let keys := (xs.take count).map key
  (xs.zipIdx.drop count).foldl
    (fun extended entry => if key entry.1 ∈ keys then entry.2 + 1 else extended) count

/-- No key occurs on both sides of the cut. -/
def Separates (key : α → κ) (xs : List α) (count : ℕ) : Prop :=
  ∀ x ∈ xs.take count, ∀ y ∈ xs.drop count, key x ≠ key y

section

variable {key : α → κ} {xs : List α} {count i : ℕ}

/-- Where an element fits the last one that does decides. -/
theorem foldl_last {β : Type} (p : β → Prop) [DecidablePred p] (f : β → ℕ) (entries : List β)
    (start : ℕ) :
    let last := entries.foldl (fun extended entry => if p entry then f entry + 1 else extended) start
    ((∀ entry ∈ entries, ¬ p entry) ∧ last = start) ∨
      ∃ entry ∈ entries, p entry ∧ last = f entry + 1 := by
  induction entries generalizing start with
  | nil => exact Or.inl ⟨fun _ h => (by cases h), rfl⟩
  | cons first entries ih =>
    rcases ih (if p first then f first + 1 else start) with
      ⟨hnone, hstart⟩ | ⟨entry, hentry, hp, heq⟩
    · by_cases hfirst : p first
      · exact Or.inr ⟨first, List.mem_cons_self, hfirst, hstart.trans (if_pos hfirst)⟩
      · refine Or.inl ⟨fun entry hentry => ?_, hstart.trans (if_neg hfirst)⟩
        rcases List.mem_cons.mp hentry with rfl | hmem
        · exact hfirst
        · exact hnone entry hmem
    · exact Or.inr ⟨entry, List.mem_cons_of_mem _ hentry, hp, heq⟩

theorem mem_zipIdx_drop {entry : α × ℕ} :
    entry ∈ xs.zipIdx.drop count ↔ count ≤ entry.2 ∧ xs[entry.2]? = some entry.1 := by
  rw [List.mem_iff_getElem?]
  simp only [List.getElem?_drop, List.getElem?_zipIdx, Option.map_eq_some_iff, Nat.zero_add]
  constructor
  · rintro ⟨i, x, hx, rfl⟩
    exact ⟨Nat.le_add_right _ _, hx⟩
  · rintro ⟨hle, hx⟩
    have hsplit : count + (entry.2 - count) = entry.2 := Nat.add_sub_cancel' hle
    exact ⟨entry.2 - count, entry.1, by rw [hsplit]; exact hx, by rw [hsplit]⟩

theorem mem_drop_iff {y : α} : y ∈ xs.drop count ↔ ∃ i, count ≤ i ∧ xs[i]? = some y := by
  rw [List.mem_iff_getElem?]
  simp only [List.getElem?_drop]
  constructor
  · rintro ⟨i, hi⟩
    exact ⟨count + i, Nat.le_add_right _ _, hi⟩
  · rintro ⟨i, hle, hi⟩
    exact ⟨i - count, by rw [Nat.add_sub_cancel' hle]; exact hi⟩

/-- A pass ends behind the last element after the cut whose key is known. -/
theorem extendCut_spec (key : α → κ) (xs : List α) (count : ℕ) :
    (Separates key xs count ∧ extendCut key xs count = count) ∨
      ∃ i x, count ≤ i ∧ xs[i]? = some x ∧ (∃ known ∈ xs.take count, key known = key x) ∧
        extendCut key xs count = i + 1 := by
  rcases foldl_last (fun entry : α × ℕ => key entry.1 ∈ (xs.take count).map key) Prod.snd
    (xs.zipIdx.drop count) count with
    ⟨hnone, heq⟩ | ⟨entry, hentry, hknown, heq⟩
  · refine Or.inl ⟨fun x hx y hy hsame => ?_, heq⟩
    obtain ⟨i, hle, hi⟩ := mem_drop_iff.mp hy
    exact hnone (y, i) (mem_zipIdx_drop.mpr ⟨hle, hi⟩) (List.mem_map.mpr ⟨x, hx, hsame⟩)
  · obtain ⟨hle, hx⟩ := mem_zipIdx_drop.mp hentry
    exact Or.inr ⟨entry.2, entry.1, hle, hx, List.mem_map.mp hknown, heq⟩

theorem le_extendCut : count ≤ extendCut key xs count := by
  rcases extendCut_spec key xs count with
    ⟨-, heq⟩ | ⟨i, x, hle, -, -, heq⟩
  · exact heq.ge
  · rw [heq]
    exact hle.trans (Nat.le_succ i)

theorem extendCut_le_length (h : count ≤ xs.length) : extendCut key xs count ≤ xs.length := by
  rcases extendCut_spec key xs count with
    ⟨-, heq⟩ | ⟨i, x, -, hx, -, heq⟩
  · rw [heq]
    exact h
  · rw [heq]
    exact (List.getElem?_eq_some_iff.mp hx).1

/-- A pass that moves the cut leaves less of the list behind it. -/
theorem extendCut_decreases (h : extendCut key xs count ≠ count) :
    xs.length - extendCut key xs count < xs.length - count := by
  rcases extendCut_spec key xs count with
    ⟨-, heq⟩ | ⟨i, x, hle, hx, -, heq⟩
  · exact absurd heq h
  · have hi := (List.getElem?_eq_some_iff.mp hx).1
    omega

/-- A pass that moves nothing has separated the keys. -/
theorem separates_of_fixed (h : extendCut key xs count = count) : Separates key xs count := by
  rcases extendCut_spec key xs count with
    ⟨hseparates, -⟩ | ⟨i, x, hle, -, -, heq⟩
  · exact hseparates
  · omega

/-- A pass does not move the cut past one that separates the keys. -/
theorem extendCut_le_of_separates {limit : ℕ} (hseparates : Separates key xs limit)
    (hle : count ≤ limit) : extendCut key xs count ≤ limit := by
  rcases extendCut_spec key xs count with
    ⟨-, heq⟩ | ⟨i, x, -, hx, ⟨known, hknown, hsame⟩, heq⟩
  · rw [heq]
    exact hle
  · rw [heq]
    by_contra hlt
    refine hseparates known ?_ x (mem_drop_iff.mpr ⟨i, by omega, hx⟩) hsame
    exact (List.take_subset_take_left xs hle) hknown

end

/-- Passes until the cut stays. -/
def growCut (key : α → κ) (xs : List α) (count : ℕ) : ℕ :=
  if extendCut key xs count = count then count else growCut key xs (extendCut key xs count)
termination_by xs.length - count
decreasing_by exact extendCut_decreases ‹_›

section

variable {key : α → κ} {xs : List α} {count : ℕ}

/-- The cut that is reached, after so many passes. -/
structure Grown (key : α → κ) (xs : List α) (count reached : ℕ) : Prop where
  rounds : ∃ n ≤ xs.length - count, (extendCut key xs)^[n] count = reached
  fixed : extendCut key xs reached = reached
  le : count ≤ reached
  le_length : count ≤ xs.length → reached ≤ xs.length
  least : ∀ limit, count ≤ limit → Separates key xs limit → reached ≤ limit

/-- **The passes end at the first cut that separates the keys.** -/
theorem growCut_grown (key : α → κ) (xs : List α) (count : ℕ) :
    Grown key xs count (growCut key xs count) := by
  fun_induction growCut key xs count with
  | case1 count hfixed =>
    exact ⟨⟨0, Nat.zero_le _, rfl⟩, hfixed, le_refl _, id, fun _ hle _ => hle⟩
  | case2 count hmoves ih =>
    obtain ⟨n, hn, hrounds⟩ := ih.rounds
    have hless := extendCut_decreases hmoves
    refine ⟨⟨n + 1, by omega, hrounds⟩, ih.fixed, le_extendCut.trans ih.le,
      fun hle => ih.le_length (extendCut_le_length hle), fun limit hle hseparates => ?_⟩
    exact ih.least limit (extendCut_le_of_separates hseparates hle) hseparates

theorem Grown.separates {reached : ℕ} (h : Grown key xs count reached) :
    Separates key xs reached :=
  separates_of_fixed h.fixed

end

end ProtoScope.Library
