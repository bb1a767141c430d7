/-
A range of positions split evenly.

`border` cuts `count` positions into `buckets` consecutive parts whose sizes differ by at most one;
with at least as many positions as parts none of them is empty.
-/
import Mathlib.Data.Nat.Notation
import Mathlib.Tactic.Common

namespace ProtoScope.Library.UniformBuckets

/-- Where bucket `bucket` begins, and the one before it ends. -/
def border (count buckets bucket : ℕ) : ℕ := bucket * count / buckets

variable {count buckets : ℕ}

@[simp] theorem border_zero : border count buckets 0 = 0 := by
  simp [border]

theorem border_last (hpos : 0 < buckets) : border count buckets buckets = count :=
  Nat.mul_div_cancel_left count hpos

/-- No bucket is empty. -/
theorem border_lt (hpos : 0 < buckets) (hle : buckets ≤ count) (bucket : ℕ) :
    border count buckets bucket < border count buckets (bucket + 1) := by
  unfold border
  have hnext : (bucket * count / buckets + 1) * buckets ≤ (bucket + 1) * count := by
    have hbelow := Nat.div_mul_le_self (bucket * count) buckets
    rw [Nat.add_mul, Nat.add_mul, Nat.one_mul, Nat.one_mul]
    exact Nat.add_le_add hbelow hle
  exact (Nat.le_div_iff_mul_le hpos).mpr hnext

theorem border_mono {first last : ℕ} (h : first ≤ last) :
    border count buckets first ≤ border count buckets last :=
  Nat.div_le_div_right (Nat.mul_le_mul_right count h)

theorem border_le (hpos : 0 < buckets) {bucket : ℕ} (h : bucket ≤ buckets) :
    border count buckets bucket ≤ count := by
  have hmono := @border_mono count buckets bucket buckets h
  rw [border_last hpos] at hmono
  exact hmono

/-- Every position before a border is in a bucket before it. -/
theorem exists_bucket {position last : ℕ} (h : position < border count buckets last) :
    ∃ bucket < last, border count buckets bucket ≤ position ∧
      position < border count buckets (bucket + 1) := by
  induction last with
  | zero =>
    rw [border_zero] at h
    exact (Nat.not_lt_zero _ h).elim
  | succ last ih =>
    by_cases hbefore : position < border count buckets last
    · obtain ⟨bucket, hlt, hbucket⟩ := ih hbefore
      exact ⟨bucket, Nat.lt_succ_of_lt hlt, hbucket⟩
    · exact ⟨last, Nat.lt_succ_self last, Nat.le_of_not_lt hbefore, h⟩

end ProtoScope.Library.UniformBuckets
