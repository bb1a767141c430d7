/-
The merge of wave summaries, and the scan it is a shortcut for.

A summary keeps four selected values: the least and the greatest finite value, the
smallest positive time step, and the strongest jump up and down.  Every selection
associates, so merging the scans of two adjacent ranges gives the scan of their union,
field by field.  The jumps need more than that: the jump across a border is compared
after those inside the right range, so their selection has to commute as well.
-/
import ProtoScope.Plot.WaveQuery
import ProtoScope.Library.Selection
import ProtoScope.Library.BlockSummaries

namespace ProtoScope.Plot

open WaveScalar
open ProtoScope.Library.Selection
open ProtoScope.Library.BlockSummaries (RangeSummary)
open ProtoScope.Library

/-- The facts about the order that merging rests on; they hold of doubles, with
not-a-number, the infinities and the two zeros among them. -/
class LawfulWaveScalar (α : Type) [WaveScalar α] : Prop where
  lt_irrefl : ∀ a : α, lt a a = false
  lt_trans : ∀ {a b c : α}, lt a b = true → lt b c = true → lt a c = true
  lt_or_lt : ∀ {a b c : α}, isFinite b = true → lt a c = true → lt a b = true ∨ lt b c = true
  lt_or_eq_or_lt : ∀ {a b : α}, lt zero a = true → lt zero b = true →
    lt a b = true ∨ a = b ∨ lt b a = true
  eq_iff_of_positive : ∀ {a b : α}, lt zero a = true → (eq a b = true ↔ a = b)
  eq_zero : eq (zero : α) zero = true

instance : LawfulWaveScalar Float where
  lt_irrefl := FloatOrder.not_lt_self
  lt_trans := FloatOrder.lt_of_lt_of_lt
  lt_or_lt := FloatOrder.lt_or_lt
  lt_or_eq_or_lt := FloatOrder.lt_or_eq_or_lt
  eq_iff_of_positive := FloatOrder.beq_iff_eq_of_positive
  eq_zero := FloatOrder.zero_beq_zero

attribute [ext] WaveSummary

variable {α : Type} [WaveScalar α] [LawfulWaveScalar α]

open LawfulWaveScalar

theorem not_lt_self (a : α) : ¬ lt a a = true := by
  rw [LawfulWaveScalar.lt_irrefl a]
  exact Bool.false_ne_true

theorem lt_asymm {a b : α} (h : lt a b = true) : ¬ lt b a = true := by
  intro hc
  exact not_lt_self a (lt_trans h hc)

/-- Zero, or a positive number. -/
def NotNegative (a : α) : Prop := a = zero ∨ lt zero a = true

/-- A number that is not negative lies on one side of every positive one. -/
theorem lt_or_lt_of_notNegative {a b c : α} (ha : NotNegative a) (hb : NotNegative b)
    (h : lt a c = true) : lt a b = true ∨ lt b c = true := by
  have hc : lt zero c = true := by
    rcases ha with rfl | ha
    · exact h
    · exact lt_trans ha h
  rcases hb with rfl | hb
  · exact .inr hc
  · rcases lt_or_eq_or_lt hb hc with hbc | rfl | hcb
    · exact .inr hbc
    · exact .inl h
    · exact .inl (lt_trans h hcb)

/-! ### The smallest time step -/

def stepBeats (step minStep : α) : Bool :=
  lt zero step && (eq minStep zero || lt step minStep)

omit [LawfulWaveScalar α] in
theorem keepStep_eq (step minStep : α) : keepStep step minStep = pick stepBeats step minStep := rfl

theorem stepBeats_iff {s m : α} (hm : NotNegative m) :
    stepBeats s m = true ↔ lt zero s = true ∧ (m = zero ∨ lt s m = true) := by
  unfold stepBeats
  simp only [Bool.and_eq_true, Bool.or_eq_true]
  rcases hm with rfl | hm
  · simp [eq_zero]
  · rw [eq_iff_of_positive hm]

theorem keepStep_notNegative {s m : α} (hm : NotNegative m) : NotNegative (keepStep s m) := by
  rw [keepStep_eq]
  apply pick_induction
  · intro h
    exact .inr ((stepBeats_iff hm).mp h).1
  · exact hm

theorem keepStep_assoc {a b c : α} (ha : NotNegative a) (hb : NotNegative b) :
    keepStep c (keepStep b a) = keepStep (keepStep c b) a := by
  simp only [keepStep_eq]
  apply pick_assoc
  · intro hcb hba
    rw [stepBeats_iff ha] at hba ⊢
    rw [stepBeats_iff hb] at hcb
    refine ⟨hcb.1, hba.2.imp_right ?_⟩
    intro hlt
    rcases hcb.2 with rfl | hcb
    · exact absurd hba.1 (not_lt_self _)
    · exact lt_trans hcb hlt
  · intro hca
    rw [stepBeats_iff ha] at hca ⊢
    rw [stepBeats_iff hb]
    rcases hb with rfl | hpos
    · exact .inr ⟨hca.1, .inl rfl⟩
    · rcases hca.2 with rfl | hlt
      · exact .inl ⟨hpos, .inl rfl⟩
      · rcases lt_or_lt_of_notNegative (.inr hca.1) (.inr hpos) hlt with h | h
        · exact .inr ⟨hca.1, .inr h⟩
        · exact .inl ⟨hpos, .inr h⟩

/-! ### The extreme finite values -/

omit [LawfulWaveScalar α] in
theorem replaces_iff {better : α → α → Bool} {b a : α} :
    replaces better b a = true ↔
      (better b a = true ∨ isFinite a = false) ∧ isFinite b = true := by
  simp [replaces]

omit [LawfulWaveScalar α] in
theorem replaces_trans {better : α → α → Bool} {a b c : α}
    (htrans : better c b = true → better b a = true → better c a = true)
    (hcb : replaces better c b = true) (hba : replaces better b a = true) :
    replaces better c a = true := by
  rw [replaces_iff] at *
  refine ⟨hba.1.imp_left ?_, hcb.2⟩
  intro h
  rcases hcb.1 with hcb | hcb
  · exact htrans hcb h
  · rw [hba.2] at hcb
    cases hcb

omit [LawfulWaveScalar α] in
theorem replaces_middle {better : α → α → Bool} {a b c : α}
    (hmiddle : isFinite b = true → better c a = true → better b a = true ∨ better c b = true)
    (h : replaces better c a = true) :
    replaces better b a = true ∨ replaces better c b = true := by
  rw [replaces_iff] at *
  rw [replaces_iff]
  rcases hb : isFinite b
  · exact .inr ⟨.inr rfl, h.2⟩
  · rcases h.1 with hlt | hinf
    · rcases hmiddle hb hlt with h' | h'
      · exact .inl ⟨.inl h', rfl⟩
      · exact .inr ⟨.inl h', h.2⟩
    · exact .inl ⟨.inr hinf, rfl⟩

/-- An extreme value with the index it was found at. -/
def extremeBeats (better : α → α → Bool) (b a : α × ℕ) : Bool := replaces better b.1 a.1

omit [LawfulWaveScalar α] in
theorem extreme_assoc {better : α → α → Bool}
    (htrans : ∀ a b c : α, better c b = true → better b a = true → better c a = true)
    (hmiddle : ∀ a b c : α, isFinite b = true → better c a = true →
      better b a = true ∨ better c b = true) (a b c : α × ℕ) :
    pick (extremeBeats better) c (pick (extremeBeats better) b a) =
      pick (extremeBeats better) (pick (extremeBeats better) c b) a := by
  apply pick_assoc
  · exact replaces_trans (htrans _ _ _)
  · exact replaces_middle (hmiddle _ _ _)

theorem minimum_assoc (a b c : α × ℕ) :
    pick (extremeBeats lt) c (pick (extremeBeats lt) b a) =
      pick (extremeBeats lt) (pick (extremeBeats lt) c b) a := by
  refine extreme_assoc ?_ ?_ a b c
  · intro a b c hcb hba
    exact lt_trans hcb hba
  · intro a b c hb hca
    exact (lt_or_lt hb hca).symm

theorem maximum_assoc (a b c : α × ℕ) :
    pick (extremeBeats fun b a => lt a b) c (pick (extremeBeats fun b a => lt a b) b a) =
      pick (extremeBeats fun b a => lt a b) (pick (extremeBeats fun b a => lt a b) c b) a := by
  refine extreme_assoc ?_ ?_ a b c
  · intro a b c hcb hba
    exact lt_trans hba hcb
  · intro a b c hb hca
    exact lt_or_lt hb hca

/-! ### The strongest jump -/

/-- No jump, or one of positive strength. -/
def Jump (p : α × ℕ) : Prop := p = (zero, 0) ∨ lt zero p.1 = true

def jumpBeats (p q : α × ℕ) : Bool :=
  lt q.1 p.1 || (lt zero p.1 && eq p.1 q.1 && decide (p.2 < q.2))

omit [LawfulWaveScalar α] in
theorem keep_eq (p q : α × ℕ) : keep p.1 p.2 q = pick jumpBeats p q := rfl

theorem jumpBeats_iff {p q : α × ℕ} :
    jumpBeats p q = true ↔ lt q.1 p.1 = true ∨ (lt zero p.1 = true ∧ p.1 = q.1 ∧ p.2 < q.2) := by
  unfold jumpBeats
  simp only [Bool.or_eq_true, Bool.and_eq_true, decide_eq_true_eq]
  constructor
  · rintro (h | ⟨⟨hpos, he⟩, hlt⟩)
    · exact .inl h
    · exact .inr ⟨hpos, (eq_iff_of_positive hpos).mp he, hlt⟩
  · rintro (h | ⟨hpos, he, hlt⟩)
    · exact .inl h
    · exact .inr ⟨⟨hpos, (eq_iff_of_positive hpos).mpr he⟩, hlt⟩

omit [LawfulWaveScalar α] in
theorem Jump.notNegative {p : α × ℕ} (h : Jump p) : NotNegative p.1 := by
  rcases h with rfl | h
  · exact .inl rfl
  · exact .inr h

theorem positive_of_jumpBeats {p q : α × ℕ} (hq : Jump q) (h : jumpBeats p q = true) :
    lt zero p.1 = true := by
  rcases jumpBeats_iff.mp h with h | h
  · rcases hq with rfl | hq
    · exact h
    · exact lt_trans hq h
  · exact h.1

/-- A jump that is not up is never kept. -/
theorem keep_not_positive {p q : α × ℕ} (hp : ¬ lt zero p.1 = true) (hq : Jump q) :
    keep p.1 p.2 q = q := by
  rw [keep_eq]
  apply pick_of_not_beats
  intro h
  exact hp (positive_of_jumpBeats hq h)

theorem keep_jump {p q : α × ℕ} (hq : Jump q) : Jump (keep p.1 p.2 q) := by
  rw [keep_eq]
  apply pick_induction
  · intro h
    exact .inr (positive_of_jumpBeats hq h)
  · exact hq

theorem keep_assoc {a b c : α × ℕ} (ha : Jump a) (hb : Jump b) :
    keep c.1 c.2 (keep b.1 b.2 a) = keep (keep c.1 c.2 b).1 (keep c.1 c.2 b).2 a := by
  simp only [keep_eq]
  apply pick_assoc
  · intro hcb hba
    rw [jumpBeats_iff] at *
    rcases hcb with hcb | ⟨hc, he, hlt⟩ <;> rcases hba with hba | ⟨hb', he', hlt'⟩
    · exact .inl (lt_trans hba hcb)
    · exact .inl (he' ▸ hcb)
    · exact .inl (he ▸ hba)
    · exact .inr ⟨hc, he.trans he', hlt.trans hlt'⟩
  · intro hca
    have hc := positive_of_jumpBeats ha hca
    rw [jumpBeats_iff] at hca ⊢
    rw [jumpBeats_iff]
    rcases hca with hca | ⟨-, he, hlt⟩
    · rcases lt_or_lt_of_notNegative ha.notNegative hb.notNegative hca with h | h
      · exact .inl (.inl h)
      · exact .inr (.inl h)
    · rcases hb with rfl | hb
      · exact .inr (.inl hc)
      · rcases lt_or_eq_or_lt hb hc with h | h | h
        · exact .inr (.inl h)
        · rcases Nat.lt_or_ge b.2 a.2 with h' | h'
          · exact .inl (.inr ⟨hb, h.trans he, h'⟩)
          · exact .inr (.inr ⟨hc, h.symm, by omega⟩)
        · exact .inl (.inl (he ▸ h))

theorem keep_comm {a b : α × ℕ} (ha : Jump a) (hb : Jump b) :
    keep a.1 a.2 b = keep b.1 b.2 a := by
  simp only [keep_eq]
  apply pick_comm
  · intro h h'
    rw [jumpBeats_iff] at h h'
    rcases h with h | ⟨-, he, hlt⟩ <;> rcases h' with h' | ⟨-, he', hlt'⟩
    · exact lt_asymm h h'
    · exact not_lt_self _ (he' ▸ h)
    · exact not_lt_self _ (he ▸ h')
    · omega
  · rw [jumpBeats_iff, jumpBeats_iff]
    rcases ha with rfl | ha
    · rcases hb with rfl | hb
      · exact .inl rfl
      · exact .inr (.inr (.inl hb))
    · rcases hb with rfl | hb
      · exact .inr (.inl (.inl ha))
      · rcases lt_or_eq_or_lt ha hb with h | h | h
        · exact .inr (.inr (.inl h))
        · rcases Nat.lt_trichotomy a.2 b.2 with h' | h' | h'
          · exact .inr (.inl (.inr ⟨ha, h, h'⟩))
          · exact .inl (Prod.ext h h')
          · exact .inr (.inr (.inr ⟨hb, h.symm, h'⟩))
        · exact .inr (.inl (.inl h))

/-! ### Merging -/

namespace WaveSummary

def riseJump (s : WaveSummary α) : α × ℕ := (s.rise, s.riseBefore)

def fallJump (s : WaveSummary α) : α × ℕ := (s.fall, s.fallBefore)

/-- What every summary of a range satisfies. -/
structure WellFormed (s : WaveSummary α) : Prop where
  rise : Jump s.riseJump
  fall : Jump s.fallJump
  minStep : NotNegative s.minStep

end WaveSummary

open WaveSummary

/-- The jump from the last sample of one range to the first of the next, by its strength
in the direction asked for; no jump where the ranges are apart or a value is not finite. -/
def borderJump (strength : α → α) (a b : WaveSummary α) : α × ℕ :=
  if isFinite a.lastValue && isFinite b.firstValue && a.last + 1 == b.first then
    let delta := strength (sub b.firstValue a.lastValue)
    if lt zero delta then (delta, a.last) else (zero, 0)
  else
    (zero, 0)

omit [LawfulWaveScalar α] in
theorem borderJump_jump (strength : α → α) (a b : WaveSummary α) :
    Jump (borderJump strength a b) := by
  unfold borderJump
  split
  · dsimp only
    split
    · exact .inr ‹_›
    · exact .inl rfl
  · exact .inl rfl

/-- The strongest of the jumps on the left, on the right and across the border. -/
def joinJumps (strength : α → α) (a b : WaveSummary α) (left right : α × ℕ) : α × ℕ :=
  keep (borderJump strength a b).1 (borderJump strength a b).2 (keep right.1 right.2 left)

theorem joinJumps_jump {strength : α → α} {a b : WaveSummary α} {left right : α × ℕ}
    (h : Jump left) : Jump (joinJumps strength a b left right) :=
  keep_jump (keep_jump h)

/-- The source compares the border jump only where there is one. -/
theorem joinJumps_eq {strength : α → α} {a b : WaveSummary α} {left right : α × ℕ}
    (h : Jump left) :
    (if isFinite a.lastValue && isFinite b.firstValue && a.last + 1 == b.first then
      keep (strength (sub b.firstValue a.lastValue)) a.last (keep right.1 right.2 left)
    else keep right.1 right.2 left) = joinJumps strength a b left right := by
  have hzero : ¬ lt zero ((zero, 0) : α × ℕ).1 = true := not_lt_self _
  unfold joinJumps borderJump
  split
  · dsimp only
    split
    · rfl
    · rename_i hpos
      rw [keep_not_positive hzero (keep_jump h)]
      exact keep_not_positive (p := (_, a.last)) hpos (keep_jump h)
  · rw [keep_not_positive hzero (keep_jump h)]

theorem keep_right_comm {a b c : α × ℕ} (ha : Jump a) (hb : Jump b) (hc : Jump c) :
    keep c.1 c.2 (keep b.1 b.2 a) = keep b.1 b.2 (keep c.1 c.2 a) := by
  rw [keep_assoc ha hb, keep_assoc ha hc, keep_comm hc hb]

/-- **The strongest jump of three ranges** does not depend on the bracketing; `dab` and
`dbc` are the jumps across the two borders. -/
theorem keep_three {a b c dab dbc : α × ℕ} (ha : Jump a) (hb : Jump b) (hc : Jump c)
    (hab : Jump dab) (hbc : Jump dbc) :
    keep dbc.1 dbc.2 (keep c.1 c.2 (keep dab.1 dab.2 (keep b.1 b.2 a))) =
      keep dab.1 dab.2
        (keep (keep dbc.1 dbc.2 (keep c.1 c.2 b)).1 (keep dbc.1 dbc.2 (keep c.1 c.2 b)).2 a) := by
  have hba : Jump (keep b.1 b.2 a) := keep_jump ha
  have hcb : Jump (keep c.1 c.2 b) := keep_jump hb
  calc keep dbc.1 dbc.2 (keep c.1 c.2 (keep dab.1 dab.2 (keep b.1 b.2 a)))
      = keep dbc.1 dbc.2 (keep dab.1 dab.2 (keep c.1 c.2 (keep b.1 b.2 a))) := by
        rw [keep_right_comm hba hab hc]
    _ = keep dab.1 dab.2 (keep dbc.1 dbc.2 (keep c.1 c.2 (keep b.1 b.2 a))) := by
        rw [keep_right_comm (keep_jump hba) hab hbc]
    _ = keep dab.1 dab.2
          (keep dbc.1 dbc.2 (keep (keep c.1 c.2 b).1 (keep c.1 c.2 b).2 a)) := by
        rw [keep_assoc (c := c) ha hb]
    _ = _ := by
        rw [keep_assoc (c := dbc) ha hcb]

section Merge

variable {a b c : WaveSummary α}

omit [LawfulWaveScalar α]

theorem merge_left_empty (h : a.count = 0) : merge a b = b := if_pos h

theorem merge_right_empty (ha : a.count ≠ 0) (hb : b.count = 0) : merge a b = a := by
  rw [merge, if_neg ha, if_pos hb]

theorem merge_count (a b : WaveSummary α) : (merge a b).count = a.count + b.count := by
  unfold merge
  split
  · omega
  · split
    · omega
    · rfl

/-- The least finite value with its index. -/
def leastValue (s : WaveSummary α) : α × ℕ := (s.minValue, s.minimum)

def greatestValue (s : WaveSummary α) : α × ℕ := (s.maxValue, s.maximum)

theorem merge_leastValue (ha : a.count ≠ 0) (hb : b.count ≠ 0) :
    leastValue (merge a b) = pick (extremeBeats lt) (leastValue b) (leastValue a) := by
  rcases h : replaces lt b.minValue a.minValue <;>
    simp [merge, ha, hb, leastValue, pick, extremeBeats, replacesMinimum, h]

theorem merge_greatestValue (ha : a.count ≠ 0) (hb : b.count ≠ 0) :
    greatestValue (merge a b) =
      pick (extremeBeats fun b a => lt a b) (greatestValue b) (greatestValue a) := by
  rcases h : replaces (fun b a => lt a b) b.maxValue a.maxValue <;>
    simp [merge, ha, hb, greatestValue, pick, extremeBeats, replacesMaximum, h]

theorem merge_minStep (ha : a.count ≠ 0) (hb : b.count ≠ 0) :
    (merge a b).minStep = keepStep b.minStep (keepStep (sub b.firstTime a.lastTime) a.minStep) := by
  simp only [merge, if_neg ha, if_neg hb]

/-- The end of the range that the next border looks at. -/
theorem merge_last (ha : a.count ≠ 0) (hb : b.count ≠ 0) :
    (merge a b).last = b.last ∧ (merge a b).lastValue = b.lastValue ∧
      (merge a b).lastTime = b.lastTime ∧ (merge a b).lastBits = b.lastBits := by
  simp only [merge, if_neg ha, if_neg hb, and_self]

theorem merge_first (ha : a.count ≠ 0) (hb : b.count ≠ 0) :
    (merge a b).first = a.first ∧ (merge a b).firstValue = a.firstValue ∧
      (merge a b).firstTime = a.firstTime ∧ (merge a b).firstBits = a.firstBits := by
  simp only [merge, if_neg ha, if_neg hb, and_self]

theorem merge_fields (ha : a.count ≠ 0) (hb : b.count ≠ 0) :
    (merge a b).timeIncreasing =
        (a.timeIncreasing && b.timeIncreasing && lt zero (sub b.firstTime a.lastTime)) ∧
      (merge a b).finiteCount = a.finiteCount + b.finiteCount ∧
      (merge a b).bitsAnd = a.bitsAnd &&& b.bitsAnd ∧
      (merge a b).bitsOr = a.bitsOr ||| b.bitsOr := by
  simp only [merge, if_neg ha, if_neg hb, and_self]

theorem borderJump_merge_left (strength : α → α) (ha : a.count ≠ 0) (hb : b.count ≠ 0) :
    borderJump strength (merge a b) c = borderJump strength b c := by
  obtain ⟨hlast, hvalue, -, -⟩ := merge_last ha hb
  simp only [borderJump, hlast, hvalue]

theorem borderJump_merge_right (strength : α → α) (hb : b.count ≠ 0) (hc : c.count ≠ 0) :
    borderJump strength a (merge b c) = borderJump strength a b := by
  obtain ⟨hfirst, hvalue, -, -⟩ := merge_first hb hc
  simp only [borderJump, hfirst, hvalue]

end Merge

section MergeJumps

variable {a b c : WaveSummary α}

theorem merge_riseJump (ha : a.count ≠ 0) (hb : b.count ≠ 0) (hwf : WellFormed a) :
    (merge a b).riseJump = joinJumps id a b a.riseJump b.riseJump := by
  rw [← joinJumps_eq hwf.rise]
  simp only [merge, if_neg ha, if_neg hb, riseJump, id]

theorem merge_fallJump (ha : a.count ≠ 0) (hb : b.count ≠ 0) (hwf : WellFormed a) :
    (merge a b).fallJump = joinJumps neg a b a.fallJump b.fallJump := by
  rw [← joinJumps_eq hwf.fall]
  simp only [merge, if_neg ha, if_neg hb, fallJump]

theorem WaveSummary.WellFormed.merge (ha : WellFormed a) (hb : WellFormed b) :
    WellFormed (Plot.merge a b) := by
  by_cases hca : a.count = 0
  · rw [merge_left_empty hca]
    exact hb
  by_cases hcb : b.count = 0
  · rw [merge_right_empty hca hcb]
    exact ha
  refine ⟨?_, ?_, ?_⟩
  · rw [merge_riseJump hca hcb ha]
    exact joinJumps_jump ha.rise
  · rw [merge_fallJump hca hcb ha]
    exact joinJumps_jump ha.fall
  · rw [merge_minStep hca hcb]
    exact keepStep_notNegative (keepStep_notNegative ha.minStep)

theorem joinJumps_assoc {strength : α → α} {ja jb jc : α × ℕ} (ha : a.count ≠ 0)
    (hb : b.count ≠ 0) (hc : c.count ≠ 0) (hja : Jump ja) (hjb : Jump jb) (hjc : Jump jc) :
    joinJumps strength (merge a b) c (joinJumps strength a b ja jb) jc =
      joinJumps strength a (merge b c) ja (joinJumps strength b c jb jc) := by
  unfold joinJumps
  rw [borderJump_merge_left strength ha hb, borderJump_merge_right strength hb hc]
  exact keep_three hja hjb hjc (borderJump_jump _ _ _) (borderJump_jump _ _ _)

theorem minStep_assoc {ab bc ma mb mc : α} (ha : NotNegative ma) (hb : NotNegative mb) :
    keepStep mc (keepStep bc (keepStep mb (keepStep ab ma))) =
      keepStep (keepStep mc (keepStep bc mb)) (keepStep ab ma) := by
  have hab : NotNegative (keepStep ab ma) := keepStep_notNegative ha
  rw [keepStep_assoc (c := bc) hab hb, keepStep_assoc hab (keepStep_notNegative hb)]

/-- **Merging associates.**  Both bracketings agree in every field, the selected values
included. -/
theorem merge_assoc (ha : WellFormed a) (hb : WellFormed b) (hc : WellFormed c) :
    merge (merge a b) c = merge a (merge b c) := by
  by_cases hca : a.count = 0
  · rw [merge_left_empty hca, merge_left_empty hca]
  by_cases hcb : b.count = 0
  · rw [merge_right_empty hca hcb, merge_left_empty hcb]
  have hcab : (merge a b).count ≠ 0 := by
    rw [merge_count]
    omega
  by_cases hcc : c.count = 0
  · rw [merge_right_empty hcab hcc, merge_right_empty hcb hcc]
  have hcbc : (merge b c).count ≠ 0 := by
    rw [merge_count]
    omega
  have hrise : (merge (merge a b) c).riseJump = (merge a (merge b c)).riseJump := by
    rw [merge_riseJump hcab hcc (ha.merge hb), merge_riseJump hca hcb ha,
      merge_riseJump hca hcbc ha, merge_riseJump hcb hcc hb]
    exact joinJumps_assoc hca hcb hcc ha.rise hb.rise hc.rise
  have hfall : (merge (merge a b) c).fallJump = (merge a (merge b c)).fallJump := by
    rw [merge_fallJump hcab hcc (ha.merge hb), merge_fallJump hca hcb ha,
      merge_fallJump hca hcbc ha, merge_fallJump hcb hcc hb]
    exact joinJumps_assoc hca hcb hcc ha.fall hb.fall hc.fall
  have hleast : leastValue (merge (merge a b) c) = leastValue (merge a (merge b c)) := by
    rw [merge_leastValue hcab hcc, merge_leastValue hca hcb, merge_leastValue hca hcbc,
      merge_leastValue hcb hcc, minimum_assoc]
  have hgreatest : greatestValue (merge (merge a b) c) = greatestValue (merge a (merge b c)) := by
    rw [merge_greatestValue hcab hcc, merge_greatestValue hca hcb, merge_greatestValue hca hcbc,
      merge_greatestValue hcb hcc, maximum_assoc]
  have hstep : (merge (merge a b) c).minStep = (merge a (merge b c)).minStep := by
    rw [merge_minStep hcab hcc, merge_minStep hca hcb, merge_minStep hca hcbc,
      merge_minStep hcb hcc, (merge_last hca hcb).2.2.1, (merge_first hcb hcc).2.2.1]
    exact minStep_assoc ha.minStep hb.minStep
  simp only [riseJump, fallJump, leastValue, greatestValue, Prod.mk.injEq]
    at hrise hfall hleast hgreatest
  have habf := merge_fields hca hcb
  have hbcf := merge_fields hcb hcc
  have hl := merge_fields hcab hcc
  have hr := merge_fields hca hcbc
  apply WaveSummary.ext
  · rw [merge_count, merge_count, merge_count, merge_count, Nat.add_assoc]
  · rw [(merge_first hcab hcc).1, (merge_first hca hcb).1, (merge_first hca hcbc).1]
  · rw [(merge_last hcab hcc).1, (merge_last hca hcbc).1, (merge_last hcb hcc).1]
  · exact hleast.2
  · exact hgreatest.2
  · exact hleast.1
  · exact hgreatest.1
  · rw [(merge_first hcab hcc).2.2.2, (merge_first hca hcb).2.2.2, (merge_first hca hcbc).2.2.2]
  · rw [(merge_last hcab hcc).2.2.2, (merge_last hca hcbc).2.2.2, (merge_last hcb hcc).2.2.2]
  · rw [hl.2.2.1, hr.2.2.1, habf.2.2.1, hbcf.2.2.1, UInt64.and_assoc]
  · rw [hl.2.2.2, hr.2.2.2, habf.2.2.2, hbcf.2.2.2, UInt64.or_assoc]
  · rw [(merge_first hcab hcc).2.2.1, (merge_first hca hcb).2.2.1, (merge_first hca hcbc).2.2.1]
  · rw [(merge_last hcab hcc).2.2.1, (merge_last hca hcbc).2.2.1, (merge_last hcb hcc).2.2.1]
  · exact hstep
  · rw [hl.1, hr.1, habf.1, hbcf.1, (merge_last hca hcb).2.2.1, (merge_first hcb hcc).2.2.1]
    ac_rfl
  · rw [hl.2.1, hr.2.1, habf.2.1, hbcf.2.1, Nat.add_assoc]
  · rw [(merge_first hcab hcc).2.1, (merge_first hca hcb).2.1, (merge_first hca hcbc).2.1]
  · rw [(merge_last hcab hcc).2.1, (merge_last hca hcbc).2.1, (merge_last hcb hcc).2.1]
  · exact hrise.1
  · exact hfall.1
  · exact hrise.2
  · exact hfall.2

end MergeJumps

/-! ### Scanning -/

section Scan

variable (sample : ℕ → WaveSample α)

/-- The scan of a range of an endless sequence, of which the window shows a part. -/
def scanOf (begin fin : ℕ) : WaveSummary α :=
  (List.range' begin (fin - begin)).foldl
    (fun result i => merge result (WaveSummary.single i (sample i))) WaveSummary.empty

omit [LawfulWaveScalar α] in
theorem scan_eq (samples : List (WaveSample α)) (offset begin fin : ℕ) :
    scan samples offset begin fin = scanOf (sampleAt samples offset) begin fin := rfl

omit [LawfulWaveScalar α] in
theorem scanOf_empty {begin fin : ℕ} (h : fin ≤ begin) :
    scanOf sample begin fin = WaveSummary.empty := by
  rw [scanOf, Nat.sub_eq_zero_of_le h]
  rfl

omit [LawfulWaveScalar α] in
theorem scanOf_succ {begin fin : ℕ} (h : begin ≤ fin) :
    scanOf sample begin (fin + 1) =
      merge (scanOf sample begin fin) (WaveSummary.single fin (sample fin)) := by
  have hsucc : fin + 1 - begin = fin - begin + 1 := by omega
  have hfin : begin + (fin - begin) = fin := by omega
  rw [scanOf, hsucc, List.range'_1_concat, List.foldl_concat, hfin]
  rfl

omit [LawfulWaveScalar α] in
theorem scanOf_congr {sample sample' : ℕ → WaveSample α} {begin fin : ℕ}
    (h : ∀ i, begin ≤ i → i < fin → sample i = sample' i) :
    scanOf sample begin fin = scanOf sample' begin fin := by
  apply List.foldl_ext
  intro result i hi
  rw [List.mem_range'_1] at hi
  rw [h i hi.1 (by omega)]

omit [LawfulWaveScalar α] in
theorem wellFormed_of_no_jump {s : WaveSummary α} (hrise : s.riseJump = (zero, 0))
    (hfall : s.fallJump = (zero, 0)) (hstep : s.minStep = zero) : WellFormed s :=
  ⟨.inl hrise, .inl hfall, .inl hstep⟩

theorem scanOf_wellFormed (begin fin : ℕ) : WellFormed (scanOf sample begin fin) := by
  rcases Nat.le_total fin begin with h | h
  · rw [scanOf_empty sample h]
    exact wellFormed_of_no_jump rfl rfl rfl
  · induction fin, h using Nat.le_induction with
    | base =>
      rw [scanOf_empty sample (Nat.le_refl begin)]
      exact wellFormed_of_no_jump rfl rfl rfl
    | succ fin h ih =>
      rw [scanOf_succ sample h]
      exact ih.merge (wellFormed_of_no_jump rfl rfl rfl)

/-- **The scans of two adjacent ranges merge into the scan of both.** -/
theorem merge_scanOf {a b c : ℕ} (hab : a ≤ b) (hbc : b ≤ c) :
    merge (scanOf sample a b) (scanOf sample b c) = scanOf sample a c := by
  induction c, hbc using Nat.le_induction with
  | base =>
    rw [scanOf_empty sample (Nat.le_refl b)]
    by_cases h : (scanOf sample a b).count = 0
    · rw [merge_left_empty h]
      have hab' : b ≤ a := by
        by_contra hc
        obtain ⟨b, rfl⟩ : ∃ m, b = m + 1 := ⟨b - 1, by omega⟩
        rw [scanOf_succ sample (by omega), merge_count] at h
        change _ + 1 = 0 at h
        omega
      rw [scanOf_empty sample hab']
    · exact merge_right_empty h rfl
  | succ c hbc ih =>
    rw [scanOf_succ sample hbc, scanOf_succ sample (hab.trans hbc), ← ih]
    exact (merge_assoc (scanOf_wellFormed sample a b) (scanOf_wellFormed sample b c)
      (wellFormed_of_no_jump rfl rfl rfl)).symm

/-- The scans of a sequence as a summary of its ranges. -/
def scanSummary : RangeSummary (WaveSummary α) where
  merge := merge
  empty := WaveSummary.empty
  of := scanOf sample
  of_empty := scanOf_empty sample
  merge_of := merge_scanOf sample

end Scan

end ProtoScope.Plot
