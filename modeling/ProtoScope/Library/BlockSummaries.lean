/-
Summaries of aligned blocks.

A range summary assigns a value to every interval of indices and merges the values of
adjacent intervals into that of their union.  Cut to a window, the aligned blocks of one
width partition it, and a block of twice the width is the merge of its two halves.  A
list of blocks that was right for one window is right for a later one, once its first
block and every block the new indices touch have been rebuilt.
-/
import Mathlib.Tactic.Ring
import Mathlib.Tactic.Linarith

namespace ProtoScope.Library.BlockSummaries

structure RangeSummary (β : Type*) where
  merge : β → β → β
  empty : β
  of : ℕ → ℕ → β
  of_empty : ∀ {a b}, b ≤ a → of a b = empty
  merge_of : ∀ {a b c}, a ≤ b → b ≤ c → merge (of a b) (of b c) = of a c

namespace RangeSummary

variable {β : Type*} (S : RangeSummary β)

theorem merge_empty (a b : ℕ) : S.merge (S.of a b) S.empty = S.of a b := by
  by_cases h : a ≤ b
  · rw [← S.of_empty (Nat.le_refl b), S.merge_of h (Nat.le_refl b)]
  · rw [S.of_empty (by omega : b ≤ a), ← S.of_empty (Nat.le_refl a),
      S.merge_of (Nat.le_refl a) (Nat.le_refl a)]

theorem empty_merge (a b : ℕ) : S.merge S.empty (S.of a b) = S.of a b := by
  by_cases h : a ≤ b
  · rw [← S.of_empty (Nat.le_refl a), S.merge_of (Nat.le_refl a) h]
  · rw [S.of_empty (by omega : b ≤ a), ← S.of_empty (Nat.le_refl a),
      S.merge_of (Nat.le_refl a) (Nat.le_refl a)]

/-- The block number `id` of the width `w`, as far as it lies in the window `[lo, hi)`. -/
def block (lo hi w id : ℕ) : β :=
  S.of (max lo (id * w)) (min hi ((id + 1) * w))

variable {lo hi lo' hi' w id : ℕ}

/-- A block in the middle of a window does not depend on the window. -/
theorem block_of_inside (hlo : lo ≤ id * w) (hhi : (id + 1) * w ≤ hi) :
    S.block lo hi w id = S.of (id * w) ((id + 1) * w) := by
  unfold block
  rw [Nat.max_eq_right hlo, Nat.min_eq_right hhi]

theorem block_of_before (h : (id + 1) * w ≤ lo) : S.block lo hi w id = S.empty :=
  S.of_empty (by omega)

theorem block_of_after (h : hi ≤ id * w) : S.block lo hi w id = S.empty :=
  S.of_empty (by omega)

/-- Before the first block that meets the window and after its last one there is nothing. -/
theorem block_outside (hwidth : 0 < w) (hlt : lo < hi)
    (h : ¬ (lo / w ≤ id ∧ id ≤ (hi - 1) / w)) : S.block lo hi w id = S.empty := by
  rcases Nat.lt_or_ge id (lo / w) with h' | h'
  · apply S.block_of_before
    calc (id + 1) * w ≤ lo / w * w := Nat.mul_le_mul_right _ h'
      _ ≤ lo := Nat.div_mul_le_self _ _
  · apply S.block_of_after
    have hid : (hi - 1) / w < id := by omega
    rw [Nat.div_lt_iff_lt_mul hwidth] at hid
    omega

/-- **A block is the merge of its two halves**, also where the window cuts it. -/
theorem merge_halves (lo hi w id : ℕ) :
    S.merge (S.block lo hi w (id * 2)) (S.block lo hi w (id * 2 + 1)) =
      S.block lo hi (w * 2) id := by
  have hl : id * (w * 2) = id * 2 * w := by ring
  have hm : (id * 2 + 1 + 1) * w = (id * 2 + 1) * w + w := by ring
  have hr : (id + 1) * (w * 2) = (id * 2 + 1) * w + w := by ring
  have hlm : (id * 2 + 1) * w = id * 2 * w + w := by ring
  unfold block
  rw [hl, hm, hr]
  generalize hmid : (id * 2 + 1) * w = middle at *
  generalize hleft : id * 2 * w = left at *
  rcases Nat.lt_or_ge hi middle with h | h
  · -- the window ends in the left half
    rw [S.of_empty (by omega : min hi (middle + w) ≤ max lo middle), merge_empty]
    congr 1
    omega
  · rcases Nat.lt_or_ge middle lo with h' | h'
    · rw [S.of_empty (by omega : min hi middle ≤ max lo left), empty_merge]
      congr 1
      omega
    · have h1 : min hi middle = middle := Nat.min_eq_right h
      have h2 : max lo middle = middle := Nat.max_eq_right h'
      rw [h1, h2, S.merge_of (by omega) (by omega)]

/-- The blocks of the width `w` that meet the window `[lo, hi)`, in order. -/
def blocks (lo hi w : ℕ) : List β :=
  (List.range' (lo / w) ((hi - 1) / w - lo / w + 1)).map (S.block lo hi w)

@[simp] theorem length_blocks : (S.blocks lo hi w).length = (hi - 1) / w - lo / w + 1 := by
  simp [blocks]

theorem getElem?_blocks {i : ℕ} (h : i < (hi - 1) / w - lo / w + 1) :
    (S.blocks lo hi w)[i]? = some (S.block lo hi w (lo / w + i)) := by
  unfold blocks
  rw [List.getElem?_map, List.getElem?_range' h]
  simp

end RangeSummary

/-! ### Rebuilding a list of blocks -/

section Refresh

variable {β : Type*}

/-- Rewrites the entries number `first`, and from `tail` to the end; entry `i` of the list
has the number `first + i`. -/
def refresh (first last tail : ℕ) (rebuilt : ℕ → β) (items : List β) : List β :=
  (List.range' tail (last + 1 - tail)).foldl (fun items id => items.set (id - first) (rebuilt id))
    (items.set 0 (rebuilt first))

theorem getElem?_foldl_set {first : ℕ} {rebuilt : ℕ → β} (i : ℕ) :
    ∀ (n tail : ℕ) (items : List β), first ≤ tail →
      ((List.range' tail n).foldl (fun items id => items.set (id - first) (rebuilt id)) items)[i]? =
        if tail ≤ first + i ∧ first + i < tail + n ∧ i < items.length then
          some (rebuilt (first + i))
        else
          items[i]? := by
  intro n
  induction n with
  | zero =>
    intro tail items _
    rw [if_neg (by omega)]
    rfl
  | succ n ih =>
    intro tail items h
    rw [List.range'_succ, List.foldl_cons, ih (tail + 1) _ (by omega), List.length_set,
      List.getElem?_set]
    by_cases hi : tail = first + i
    · rw [if_neg (by omega), if_pos (by omega)]
      by_cases hl : i < items.length
      · rw [if_pos (by omega), if_pos ⟨by omega, by omega, hl⟩, hi]
      · rw [if_neg (by omega), if_neg (by omega), List.getElem?_eq_none (by omega)]
    · rw [if_neg (by omega : ¬ tail - first = i)]
      by_cases hc : tail + 1 ≤ first + i ∧ first + i < tail + 1 + n ∧ i < items.length
      · rw [if_pos hc, if_pos ⟨by omega, by omega, hc.2.2⟩]
      · rw [if_neg hc, if_neg (by omega)]

/-- **What is not rebuilt must already be right.** -/
theorem refresh_eq {first last tail : ℕ} {rebuilt target : ℕ → β} {items : List β}
    (hlast : first ≤ last) (htail : first < tail) (hlength : items.length = last - first + 1)
    (hrebuilt : ∀ id, first ≤ id → id ≤ last → rebuilt id = target id)
    (hkept : ∀ i, 0 < i → first + i < tail → first + i ≤ last →
      items[i]? = some (target (first + i))) :
    refresh first last tail rebuilt items =
      (List.range' first (last - first + 1)).map target := by
  apply List.ext_getElem?
  intro i
  unfold refresh
  rw [getElem?_foldl_set i _ _ _ (by omega), List.length_set, List.getElem?_map]
  by_cases hi : i < last - first + 1
  · rw [List.getElem?_range' hi, Option.map_some, Nat.one_mul]
    by_cases ht : tail ≤ first + i
    · rw [if_pos ⟨ht, by omega, by omega⟩, hrebuilt _ (by omega) (by omega)]
    · rw [if_neg (by omega), List.getElem?_set]
      by_cases h0 : i = 0
      · subst h0
        rw [if_pos rfl, if_pos (by omega), Nat.add_zero, hrebuilt _ (by omega) (by omega)]
      · rw [if_neg (by omega), hkept i (by omega) (by omega) (by omega)]
  · rw [if_neg (by omega), List.getElem?_eq_none (by simp; omega),
      List.getElem?_eq_none (by simp; omega)]
    rfl

end Refresh

end ProtoScope.Library.BlockSummaries
