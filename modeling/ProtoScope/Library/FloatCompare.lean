/-
Comparing floats that are numbers.

A number, finite or infinite, has a key in the order of the floats; not-a-number has none.
So numbers are comparable with each other, and what is below or equal to a number is below
everything above it.
-/
import ProtoScope.Library.FloatOrder

namespace ProtoScope.Library.FloatOrder

variable {a b c : Float}

theorem key_of_not_isNaN (h : a.isNaN = false) : ∃ x, floatKey a = some x := by
  have hunpack : a.toModel.unpack.isNaN = false := h
  unfold floatKey
  generalize a.toModel.unpack = u at hunpack
  rcases u with s | _ | s | ⟨_ | _, m, e, hm⟩
  · cases s
    · exact ⟨_, rfl⟩
    · exact ⟨_, rfl⟩
  · cases hunpack
  · exact ⟨_, rfl⟩
  · exact ⟨_, rfl⟩
  · exact ⟨_, rfl⟩

/-- A number between two ordered floats is above the one or below the other. -/
theorem lt_or_lt_of_key (hb : ∃ y, floatKey b = some y) (hac : a.lt c = true) :
    a.lt b = true ∨ b.lt c = true := by
  obtain ⟨x, z, hx, hz, hxz⟩ := lt_iff.mp hac
  obtain ⟨y, hy⟩ := hb
  rcases lt_or_ge x y with h | h
  · exact .inl (lt_iff.mpr ⟨x, y, hx, hy, h⟩)
  · exact .inr (lt_iff.mpr ⟨y, z, hy, hz, h.trans_lt hxz⟩)

theorem key_of_beq (h : a.beq b = true) : ∃ x, floatKey a = some x ∧ floatKey b = some x := by
  replace h : (a.toModel.unpack.compare b.toModel.unpack == some .eq) = true := h
  exact unpacked_eq_key (beq_iff_eq.mp h)

theorem beq_trans (hab : a.beq b = true) (hbc : b.beq c = true) : a.beq c = true := by
  rw [show a.beq c = (a == c) from rfl, Float.beq_iff_ne_nan_and_eq]
  rw [show a.beq b = (a == b) from rfl, Float.beq_iff_ne_nan_and_eq] at hab
  rw [show b.beq c = (b == c) from rfl, Float.beq_iff_ne_nan_and_eq] at hbc
  obtain ⟨ha, -, hab⟩ := hab
  obtain ⟨-, hc, hbc⟩ := hbc
  refine ⟨ha, hc, ?_⟩
  rcases hab with rfl | ⟨rfl, rfl⟩ | ⟨rfl, rfl⟩
  · exact hbc
  · rcases hbc with rfl | ⟨h, -⟩ | ⟨-, rfl⟩
    · exact .inr (.inl ⟨rfl, rfl⟩)
    · cases h
    · exact .inl rfl
  · rcases hbc with rfl | ⟨-, rfl⟩ | ⟨h, -⟩
    · exact .inr (.inr ⟨rfl, rfl⟩)
    · exact .inl rfl
    · cases h

theorem lt_of_beq_of_lt (hab : a.beq b = true) (hbc : b.lt c = true) : a.lt c = true := by
  obtain ⟨x, ha, hb⟩ := key_of_beq hab
  obtain ⟨y, z, hy, hz, hlt⟩ := lt_iff.mp hbc
  rw [hb] at hy
  cases hy
  exact lt_iff.mpr ⟨x, z, ha, hz, hlt⟩

theorem lt_of_lt_of_beq (hab : a.lt b = true) (hbc : b.beq c = true) : a.lt c = true := by
  obtain ⟨x, hb, hc⟩ := key_of_beq hbc
  obtain ⟨y, z, hy, hz, hlt⟩ := lt_iff.mp hab
  rw [hb] at hz
  cases hz
  exact lt_iff.mpr ⟨y, x, hy, hc, hlt⟩

theorem lt_of_le_of_lt (hab : a.le b = true) (hbc : b.lt c = true) : a.lt c = true := by
  rcases lt_or_beq_of_le hab with h | h
  · exact lt_of_lt_of_lt h hbc
  · exact lt_of_beq_of_lt h hbc

theorem lt_or_beq_of_le_of_beq (hab : a.le b = true) (hbc : b.beq c = true) :
    a.lt c = true ∨ a.beq c = true := by
  rcases lt_or_beq_of_le hab with h | h
  · exact .inl (lt_of_lt_of_beq h hbc)
  · exact .inr (beq_trans h hbc)

theorem lt_of_lt_of_le (hab : a.lt b = true) (hbc : b.le c = true) : a.lt c = true := by
  rcases lt_or_beq_of_le hbc with h | h
  · exact lt_of_lt_of_lt hab h
  · exact lt_of_lt_of_beq hab h

theorem lt_or_beq_of_beq_of_le (hab : a.beq b = true) (hbc : b.le c = true) :
    a.lt c = true ∨ a.beq c = true := by
  rcases lt_or_beq_of_le hbc with h | h
  · exact .inl (lt_of_beq_of_lt hab h)
  · exact .inr (beq_trans hab h)

end ProtoScope.Library.FloatOrder
