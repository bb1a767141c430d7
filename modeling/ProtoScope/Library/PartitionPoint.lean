/-
The binary search for the point where a predicate stops holding.

This is the loop behind `std::lower_bound` and `std::upper_bound`: it keeps the first
position of the range that is left and its length, looks at the middle and goes on in one
half.  When the predicate holds up to some position and nowhere after it, the search finds
that position, and so it cuts a list into the part where the predicate holds and the part
where it does not.
-/
import Mathlib.Data.List.Basic
import Mathlib.Tactic.Common

namespace ProtoScope.Library.PartitionPoint

variable {α : Type*}

/-- The loop with an upper bound on its rounds, which the length of the range is. -/
def search (before : ℕ → Bool) : ℕ → ℕ → ℕ → ℕ
  | 0, first, _ => first
  | rounds + 1, first, count =>
    if count = 0 then first
    else if before (first + count / 2) then
      search before rounds (first + count / 2 + 1) (count - (count / 2 + 1))
    else search before rounds first (count / 2)

/-- The position where `before` stops holding in a list. -/
def find (before : α → Bool) (xs : List α) : ℕ :=
  search (fun i => xs[i]?.any before) xs.length 0 xs.length

/-- Everything below the position satisfies the predicate, everything from it on does not. -/
structure Splits (before : ℕ → Bool) (size position : ℕ) : Prop where
  le_size : position ≤ size
  below : ∀ i < position, before i = true
  above : ∀ i, position ≤ i → i < size → before i = false

theorem search_splits {before : ℕ → Bool} {size : ℕ}
    (hmono : ∀ i j, i ≤ j → j < size → before j = true → before i = true) :
    ∀ (rounds first count : ℕ), count ≤ rounds → first + count ≤ size →
      (∀ i < first, before i = true) →
      (∀ i, first + count ≤ i → i < size → before i = false) →
      Splits before size (search before rounds first count) := by
  intro rounds
  induction rounds with
  | zero =>
    intro first count hcount hsize hbelow habove
    have hempty : count = 0 := Nat.le_zero.mp hcount
    subst hempty
    exact ⟨hsize, hbelow, habove⟩
  | succ rounds ih =>
    intro first count hcount hsize hbelow habove
    unfold search
    by_cases hzero : count = 0
    · rw [if_pos hzero]
      exact ⟨by omega, hbelow, fun i hi => habove i (by omega)⟩
    rw [if_neg hzero]
    by_cases hmiddle : before (first + count / 2) = true
    · rw [if_pos hmiddle]
      refine ih _ _ (by omega) (by omega) (fun i hi => ?_) (fun i hi => habove i (by omega))
      exact hmono i (first + count / 2) (by omega) (by omega) hmiddle
    · rw [if_neg hmiddle]
      refine ih _ _ (by omega) (by omega) hbelow (fun i hi hsize => ?_)
      by_contra hheld
      exact hmiddle (hmono _ i hi hsize (by simpa using hheld))

theorem search_bounds (before : ℕ → Bool) :
    ∀ (rounds first count : ℕ),
      first ≤ search before rounds first count ∧ search before rounds first count ≤ first + count := by
  intro rounds
  induction rounds with
  | zero =>
    intro first count
    exact ⟨Nat.le_refl _, Nat.le_add_right _ _⟩
  | succ rounds ih =>
    intro first count
    unfold search
    split
    · exact ⟨Nat.le_refl _, Nat.le_add_right _ _⟩
    · split
      · have := ih (first + count / 2 + 1) (count - (count / 2 + 1))
        omega
      · have := ih first (count / 2)
        omega

/-- A predicate that holds more often is found to stop no earlier, on any data. -/
theorem search_mono {before later : ℕ → Bool} (h : ∀ i, before i = true → later i = true) :
    ∀ (rounds first count : ℕ),
      search before rounds first count ≤ search later rounds first count := by
  intro rounds
  induction rounds with
  | zero =>
    intro first count
    exact Nat.le_refl _
  | succ rounds ih =>
    intro first count
    unfold search
    by_cases hzero : count = 0
    · simp [hzero]
    · rw [if_neg hzero, if_neg hzero]
      by_cases hbefore : before (first + count / 2) = true
      · rw [if_pos hbefore, if_pos (h _ hbefore)]
        exact ih _ _
      · rw [if_neg hbefore]
        split
        · have hleft := search_bounds before rounds first (count / 2)
          have hright := search_bounds later rounds (first + count / 2 + 1)
            (count - (count / 2 + 1))
          omega
        · exact ih _ _

/-- Only one position splits a range. -/
theorem Splits.unique {before : ℕ → Bool} {size p q : ℕ} (hp : Splits before size p)
    (hq : Splits before size q) : p = q := by
  rcases Nat.lt_trichotomy p q with hlt | heq | hgt
  · have hheld := hq.below p hlt
    rw [hp.above p (Nat.le_refl p) (Nat.lt_of_lt_of_le hlt hq.le_size)] at hheld
    exact absurd hheld (by simp)
  · exact heq
  · have hheld := hp.below q hgt
    rw [hq.above q (Nat.le_refl q) (Nat.lt_of_lt_of_le hgt hp.le_size)] at hheld
    exact absurd hheld (by simp)

/-! ### Lists -/

variable {before : α → Bool} {xs : List α}

/-- Once the predicate fails it fails for the rest of the list. -/
def Downward (before : α → Bool) (xs : List α) : Prop :=
  xs.Pairwise fun a b => before b = true → before a = true

theorem find_splits (hdown : Downward before xs) :
    Splits (fun i => xs[i]?.any before) xs.length (find before xs) := by
  refine search_splits ?_ _ _ _ (Nat.le_refl _) (by omega) (by omega) (by omega)
  intro i j hij hj hheld
  rcases Nat.lt_or_eq_of_le hij with hlt | rfl
  · have hi : i < xs.length := by omega
    rw [List.getElem?_eq_getElem hj] at hheld
    rw [List.getElem?_eq_getElem hi]
    exact List.pairwise_iff_getElem.mp hdown i j hi hj hlt hheld
  · exact hheld

theorem find_le (hdown : Downward before xs) : find before xs ≤ xs.length :=
  (find_splits hdown).le_size

theorem before_of_lt_find (hdown : Downward before xs) {i : ℕ} (hi : i < find before xs)
    (hlen : i < xs.length) : before xs[i] = true := by
  have hheld := (find_splits hdown).below i hi
  rw [List.getElem?_eq_getElem hlen] at hheld
  exact hheld

theorem not_before_of_find_le (hdown : Downward before xs) {i : ℕ} (hi : find before xs ≤ i)
    (hlen : i < xs.length) : before xs[i] = false := by
  have hfailed := (find_splits hdown).above i hi hlen
  rw [List.getElem?_eq_getElem hlen] at hfailed
  exact hfailed

/-- Where everything satisfies the predicate the search finds the end. -/
theorem find_eq_length (h : ∀ x ∈ xs, before x = true) : find before xs = xs.length := by
  have hdown : Downward before xs :=
    List.pairwise_of_forall_mem_list fun x hx _ _ _ => h x hx
  by_contra hne
  have hle := find_le hdown
  have hfails := not_before_of_find_le hdown (Nat.le_refl _) (by omega : find before xs < xs.length)
  rw [h _ (List.getElem_mem _)] at hfails
  cases hfails

/-- **The search cuts the list where the predicate stops holding.** -/
theorem take_find (hdown : Downward before xs) : xs.take (find before xs) = xs.filter before := by
  have hleft : ∀ x ∈ xs.take (find before xs), before x = true := by
    intro x hx
    obtain ⟨i, hi, rfl⟩ := List.getElem_of_mem hx
    rw [List.length_take] at hi
    rw [List.getElem_take]
    exact before_of_lt_find hdown (by omega) (by omega)
  have hright : ∀ x ∈ xs.drop (find before xs), ¬ before x = true := by
    intro x hx
    obtain ⟨i, hi, rfl⟩ := List.getElem_of_mem hx
    rw [List.length_drop] at hi
    rw [List.getElem_drop, not_before_of_find_le hdown (by omega) (by omega)]
    simp
  calc xs.take (find before xs)
      = (xs.take (find before xs)).filter before ++ (xs.drop (find before xs)).filter before := by
        rw [List.filter_eq_self.mpr hleft, List.filter_eq_nil_iff.mpr hright, List.append_nil]
    _ = xs.filter before := by rw [← List.filter_append, List.take_append_drop]

theorem drop_find (hdown : Downward before xs) :
    xs.drop (find before xs) = xs.filter fun x => !before x := by
  have hleft : ∀ x ∈ xs.take (find before xs), ¬ (!before x) = true := by
    intro x hx
    rw [take_find hdown, List.mem_filter] at hx
    rw [hx.2]
    simp
  have hright : ∀ x ∈ xs.drop (find before xs), (!before x) = true := by
    intro x hx
    obtain ⟨i, hi, rfl⟩ := List.getElem_of_mem hx
    rw [List.length_drop] at hi
    rw [List.getElem_drop, not_before_of_find_le hdown (by omega) (by omega)]
    rfl
  calc xs.drop (find before xs)
      = (xs.take (find before xs)).filter (fun x => !before x)
          ++ (xs.drop (find before xs)).filter fun x => !before x := by
        rw [List.filter_eq_self.mpr hright, List.filter_eq_nil_iff.mpr hleft, List.nil_append]
    _ = xs.filter fun x => !before x := by rw [← List.filter_append, List.take_append_drop]

/-- What is before the position of one predicate and from that of another on. -/
theorem slice_find {lower upper : α → Bool} (hlower : Downward lower xs)
    (hupper : Downward upper xs) :
    (xs.drop (find lower xs)).take (find upper xs - find lower xs)
      = xs.filter fun x => !lower x && upper x := by
  have hrest : Downward upper (xs.drop (find lower xs)) :=
    List.Pairwise.sublist (List.drop_sublist _ _) hupper
  have hsplits : Splits (fun i => (xs.drop (find lower xs))[i]?.any upper)
      (xs.drop (find lower xs)).length (find upper xs - find lower xs) := by
    obtain ⟨hsize, hbelow, habove⟩ := find_splits hupper
    refine ⟨?_, fun i hi => ?_, fun i hi hlen => ?_⟩
    · rw [List.length_drop]
      omega
    · rw [List.getElem?_drop]
      exact hbelow _ (by omega)
    · rw [List.length_drop] at hlen
      rw [List.getElem?_drop]
      exact habove _ (by omega) (by omega)
  have hposition : find upper xs - find lower xs = find upper (xs.drop (find lower xs)) :=
    hsplits.unique (find_splits hrest)
  rw [hposition, take_find hrest, drop_find hlower, List.filter_filter]
  exact List.filter_congr fun x _ => Bool.and_comm _ _

end ProtoScope.Library.PartitionPoint
