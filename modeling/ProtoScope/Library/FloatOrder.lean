/-
The order of the floating-point numbers.

Lean gives `Float` a logical model: a bit pattern, unpacked into a sign, an exponent and
a mantissa, on which the comparisons are defined.  A float that is a number has a key in a
linear order, and its comparisons are those of the keys; so `<` is a strict weak order on
the numbers.  Only the two zeros share a key, hence two positive floats that are not
ordered are the same float.
-/
import Mathlib

namespace ProtoScope.Library.FloatOrder

open Float.Model

/-- Class, exponent, mantissa; `none` for not-a-number. -/
abbrev Key := ℤ ×ₗ ℤ ×ₗ ℤ

def keyOf (rank exponent mantissa : ℤ) : Key := toLex (rank, toLex (exponent, mantissa))

def unpackedKey : UnpackedFloat → Option Key
  | .notANumber => none
  | .infinity .positive => some (keyOf 2 0 0)
  | .infinity .negative => some (keyOf (-2) 0 0)
  | .zero _ => some (keyOf 0 0 0)
  | .finite .positive m e _ => some (keyOf 1 e m)
  | .finite .negative m e _ => some (keyOf (-1) (-e) (-m))

theorem keyOf_lt {r e m r' e' m' : ℤ} :
    keyOf r e m < keyOf r' e' m' ↔ r < r' ∨ r = r' ∧ (e < e' ∨ e = e' ∧ m < m') := by
  unfold keyOf
  rw [Prod.Lex.toLex_lt_toLex]
  simp only [Prod.Lex.toLex_lt_toLex]

theorem keyOf_inj {r e m r' e' m' : ℤ} :
    keyOf r e m = keyOf r' e' m' ↔ r = r' ∧ e = e' ∧ m = m' := by
  unfold keyOf
  simp

/-- **The order of two unpacked floats is the order of their keys.** -/
theorem unpacked_lt_iff (a b : UnpackedFloat) :
    a.lt b = true ↔ ∃ x y, unpackedKey a = some x ∧ unpackedKey b = some y ∧ x < y := by
  unfold UnpackedFloat.lt
  rw [beq_iff_eq]
  rcases a with s | _ | s | ⟨s, m, e, hm⟩ <;> rcases b with s' | _ | s' | ⟨s', m', e', hm'⟩ <;>
    try cases s
  all_goals try cases s'
  all_goals
    simp [UnpackedFloat.compare, unpackedKey, keyOf_lt, Ordering.then_eq_lt, Ordering.then_eq_gt,
      compare_lt_iff_lt, compare_gt_iff_gt]
  rfl

theorem unpackedKey_isSome {a : UnpackedFloat} (h : a.isFinite = true) :
    ∃ x, unpackedKey a = some x := by
  rcases a with s | _ | s | ⟨_ | _, m, e, hm⟩
  · simp [UnpackedFloat.isFinite] at h
  · simp [UnpackedFloat.isFinite] at h
  all_goals exact ⟨_, rfl⟩

abbrev zeroKey : Key := keyOf 0 0 0

/-- Above zero lie only the positive floats, and each of them has a key of its own. -/
theorem eq_of_key {u v : UnpackedFloat} {x : Key} (hu : unpackedKey u = some x)
    (hv : unpackedKey v = some x) (hx : zeroKey < x) : u = v := by
  have positive : ∀ {w : UnpackedFloat}, unpackedKey w = some x →
      (w = .infinity .positive ∧ x = keyOf 2 0 0) ∨
        ∃ m e h, w = .finite .positive m e h ∧ x = keyOf 1 e m := by
    intro w hw
    rcases w with (_ | _) | _ | _ | ⟨_ | _, m, e, hm⟩
    all_goals simp only [unpackedKey, Option.some.injEq, reduceCtorEq] at hw
    all_goals subst hw
    · simp [keyOf_lt] at hx
    · exact .inl ⟨rfl, rfl⟩
    · exact absurd hx (lt_irrefl _)
    · simp [keyOf_lt] at hx
    · exact .inr ⟨m, e, hm, rfl, rfl⟩
  rcases positive hu with ⟨rfl, hxu⟩ | ⟨m, e, hm, rfl, hxu⟩
  · rcases positive hv with ⟨rfl, -⟩ | ⟨m', e', hm', rfl, hxv⟩
    · rfl
    · rw [hxu, keyOf_inj] at hxv
      omega
  · rcases positive hv with ⟨rfl, hxv⟩ | ⟨m', e', hm', rfl, hxv⟩
    · rw [hxu, keyOf_inj] at hxv
      omega
    · rw [hxu, keyOf_inj] at hxv
      obtain ⟨-, rfl, hm⟩ := hxv
      cases Int.ofNat_inj.mp hm
      rfl

/-! ### Floats -/

def floatKey (a : Float) : Option Key := unpackedKey a.toModel.unpack

theorem lt_iff {a b : Float} :
    a.lt b = true ↔ ∃ x y, floatKey a = some x ∧ floatKey b = some y ∧ x < y := by
  rw [show a.lt b = a.toModel.unpack.lt b.toModel.unpack from ?_]
  · exact unpacked_lt_iff _ _
  · exact Bool.decide_coe _

theorem isFinite_key {a : Float} (h : a.isFinite = true) : ∃ x, floatKey a = some x :=
  unpackedKey_isSome h

theorem ofBits_zero_key : floatKey (Float.ofBits 0) = some zeroKey := by
  unfold floatKey
  rfl

/-- A float is determined by what it unpacks to. -/
theorem eq_of_floatKey {a b : Float} {x : Key} (ha : floatKey a = some x) (hb : floatKey b = some x)
    (hx : zeroKey < x) : a = b := by
  have hunpack := eq_of_key ha hb hx
  rw [← Float.toBits_inj, ← UInt64.toBitVec_inj]
  exact (UnpackedFloat.unpack_inj_of_valid a.toModel.valid b.toModel.valid).mp hunpack

section Laws

variable {a b c : Float}

theorem not_lt_self (a : Float) : a.lt a = false := by
  rw [Bool.eq_false_iff]
  intro h
  obtain ⟨x, y, hx, hy, hlt⟩ := lt_iff.mp h
  rw [hx, Option.some.injEq] at hy
  exact absurd hlt (hy ▸ lt_irrefl x)

theorem lt_of_lt_of_lt (hab : a.lt b = true) (hbc : b.lt c = true) : a.lt c = true := by
  obtain ⟨x, y, hx, hy, hxy⟩ := lt_iff.mp hab
  obtain ⟨y', z, hy', hz, hyz⟩ := lt_iff.mp hbc
  rw [hy, Option.some.injEq] at hy'
  exact lt_iff.mpr ⟨x, z, hx, hz, hxy.trans (hy' ▸ hyz)⟩

/-- Two floats that compare as equal have the same key. -/
theorem unpacked_eq_key {a b : UnpackedFloat} (h : a.compare b = some .eq) :
    ∃ x, unpackedKey a = some x ∧ unpackedKey b = some x := by
  rcases a with s | _ | s | ⟨s, m, e, hm⟩ <;> rcases b with s' | _ | s' | ⟨s', m', e', hm'⟩ <;>
    try cases s
  all_goals try cases s'
  all_goals
    first
    | exact ⟨_, rfl, rfl⟩
    | cases h
    | simp_all [UnpackedFloat.compare, unpackedKey, Ordering.then_eq_eq]

theorem not_le_of_lt {a b : Float} (h : a.lt b = true) : b.le a = false := by
  obtain ⟨x, y, hx, hy, hxy⟩ := lt_iff.mp h
  rw [Bool.eq_false_iff]
  intro hle
  replace hle : (b.toModel.unpack.compare a.toModel.unpack).any (·.isLE) = true := by
    have hdecide : b.le a = b.toModel.unpack.le a.toModel.unpack := Bool.decide_coe _
    rw [← hle, hdecide]
    rfl
  cases hcompare : b.toModel.unpack.compare a.toModel.unpack with
  | none =>
    rw [hcompare] at hle
    cases hle
  | some ordering =>
    rw [hcompare] at hle
    cases ordering with
    | gt => cases hle
    | lt =>
      have hlt : b.lt a = true := by
        rw [show b.lt a = b.toModel.unpack.lt a.toModel.unpack from Bool.decide_coe _]
        exact beq_iff_eq.mpr hcompare
      have hself := lt_of_lt_of_lt h hlt
      rw [not_lt_self] at hself
      cases hself
    | eq =>
      obtain ⟨z, hz, hz'⟩ := unpacked_eq_key hcompare
      rw [show floatKey a = some z from hz'] at hx
      rw [show floatKey b = some z from hz] at hy
      obtain rfl := Option.some.inj hx
      obtain rfl := Option.some.inj hy
      exact lt_irrefl z hxy
/-- What is not above is below or equal as a number. -/
theorem lt_or_beq_of_le {a b : Float} (h : a.le b = true) : a.lt b = true ∨ a.beq b = true := by
  replace h : (a.toModel.unpack.compare b.toModel.unpack).any (·.isLE) = true := by
    have hdecide : a.le b = a.toModel.unpack.le b.toModel.unpack := Bool.decide_coe _
    rw [← h, hdecide]
    rfl
  cases hcompare : a.toModel.unpack.compare b.toModel.unpack with
  | none =>
    rw [hcompare] at h
    cases h
  | some ordering =>
    rw [hcompare] at h
    cases ordering with
    | gt => cases h
    | lt =>
      rw [show a.lt b = a.toModel.unpack.lt b.toModel.unpack from Bool.decide_coe _]
      exact .inl (beq_iff_eq.mpr hcompare)
    | eq =>
      refine .inr ?_
      show (a.toModel.unpack.compare b.toModel.unpack == some .eq) = true
      exact beq_iff_eq.mpr hcompare

/-- A number between two ordered floats is above the one or below the other. -/
theorem lt_or_lt (hb : b.isFinite = true) (hac : a.lt c = true) : a.lt b = true ∨ b.lt c = true := by
  obtain ⟨x, z, hx, hz, hxz⟩ := lt_iff.mp hac
  obtain ⟨y, hy⟩ := isFinite_key hb
  rcases lt_or_ge x y with h | h
  · exact .inl (lt_iff.mpr ⟨x, y, hx, hy, h⟩)
  · exact .inr (lt_iff.mpr ⟨y, z, hy, hz, h.trans_lt hxz⟩)

theorem zero_beq_zero : (Float.ofBits 0).beq (Float.ofBits 0) = true :=
  rfl

/-- A positive float lies above the key of zero. -/
theorem positive_key (ha : (Float.ofBits 0).lt a = true) : ∃ x, floatKey a = some x ∧ zeroKey < x := by
  obtain ⟨z, x, hz, hx, hlt⟩ := lt_iff.mp ha
  rw [ofBits_zero_key, Option.some.injEq] at hz
  exact ⟨x, hx, hz ▸ hlt⟩

/-- **A positive float compares equal to itself only.** -/
theorem beq_iff_eq_of_positive (ha : (Float.ofBits 0).lt a = true) : a.beq b = true ↔ a = b := by
  have hnan : a ≠ Float.nan := by
    intro h
    subst h
    cases ha
  have hminus : a ≠ -0 := by
    intro h
    subst h
    cases ha
  have hzero : a ≠ 0 := by
    intro h
    subst h
    cases ha
  rw [show a.beq b = (a == b) from rfl, Float.beq_iff_ne_nan_and_eq]
  constructor
  · rintro ⟨-, -, h | ⟨h, -⟩ | ⟨h, -⟩⟩
    · exact h
    · exact absurd h hzero
    · exact absurd h hminus
  · intro h
    exact ⟨hnan, h ▸ hnan, .inl h⟩

theorem lt_or_eq_or_lt (ha : (Float.ofBits 0).lt a = true) (hb : (Float.ofBits 0).lt b = true) :
    a.lt b = true ∨ a = b ∨ b.lt a = true := by
  obtain ⟨x, hx, hpos⟩ := positive_key ha
  obtain ⟨y, hy, -⟩ := positive_key hb
  rcases lt_trichotomy x y with h | h | h
  · exact .inl (lt_iff.mpr ⟨x, y, hx, hy, h⟩)
  · exact .inr (.inl (eq_of_floatKey hx (h ▸ hy) hpos))
  · exact .inr (.inr (lt_iff.mpr ⟨y, x, hy, hx, h⟩))

end Laws

end ProtoScope.Library.FloatOrder
