/-
What the fields of a scan say about the samples.

A scan is a fold, so every field of it is met by induction on the end of the range: the
ends are those of the first and the last sample, and the two words of bits are the
conjunction and the disjunction of all values.
-/
import ProtoScope.Proofs.Plot.WaveMerge

namespace ProtoScope.Plot

open WaveScalar

/-! ### One bit of a word -/

theorem shift_and_one_eq (x : UInt64) (bit : Fin 64) :
    (x >>> UInt64.ofNat bit) &&& 1 = 1 ↔ x.toNat.testBit bit = true := by
  rw [← UInt64.toNat_inj, UInt64.toNat_and, UInt64.toNat_shiftRight]
  have hbit : (UInt64.ofNat bit).toNat % 64 = bit := by
    rw [UInt64.toNat_ofNat_of_lt' (by simp [UInt64.size]; omega)]
    omega
  rw [hbit]
  change (x.toNat >>> (bit : ℕ)) &&& 1 = 1 ↔ _
  rw [Nat.testBit, Nat.and_comm 1, Nat.and_one_is_mod]
  simp

theorem and_mask_ne_zero (x : UInt64) (bit : Fin 64) :
    x &&& ((1 : UInt64) <<< UInt64.ofNat bit) ≠ 0 ↔ x.toNat.testBit bit = true := by
  have hbit : (UInt64.ofNat bit).toNat % 64 = bit := by
    rw [UInt64.toNat_ofNat_of_lt' (by simp [UInt64.size]; omega)]
    omega
  have hmask : ((1 : UInt64) <<< UInt64.ofNat bit).toNat = 2 ^ (bit : ℕ) := by
    rw [UInt64.toNat_shiftLeft, hbit]
    change (1 <<< (bit : ℕ)) % _ = _
    rw [Nat.one_shiftLeft, Nat.mod_eq_of_lt]
    exact Nat.pow_lt_pow_right (by omega) bit.isLt
  rw [Ne, ← UInt64.toNat_inj, UInt64.toNat_and, hmask, Nat.and_two_pow]
  cases x.toNat.testBit bit <;> simp

/-! ### The ends of a scan -/

variable {α : Type} [WaveScalar α] (sample : ℕ → WaveSample α)

/-- The value that is read bit by bit. -/
def bitsOf (i : ℕ) : UInt64 := waveRawBits (sample i).value

/-- What a scan of samples that are there says about its two ends. -/
structure ScanEnds (begin fin : ℕ) (s : WaveSummary α) : Prop where
  count : s.count = fin - begin
  first : s.first = begin
  last : s.last = fin - 1
  firstBits : s.firstBits = bitsOf sample begin
  lastBits : s.lastBits = bitsOf sample (fin - 1)

variable {sample}

theorem scanOf_one (begin : ℕ) :
    scanOf sample begin (begin + 1) = WaveSummary.single begin (sample begin) := by
  rw [scanOf_succ sample (Nat.le_refl begin), scanOf_empty sample (Nat.le_refl begin)]
  exact merge_left_empty rfl

theorem scanOf_ends {begin fin : ℕ} (h : begin < fin) :
    ScanEnds sample begin fin (scanOf sample begin fin) := by
  induction fin, h using Nat.le_induction with
  | base =>
    rw [scanOf_one]
    exact ⟨by simp [WaveSummary.single], rfl, by simp [WaveSummary.single], rfl,
      by simp [WaveSummary.single, bitsOf]⟩
  | succ fin h ih =>
    have hcount : (scanOf sample begin fin).count ≠ 0 := by
      rw [ih.count]
      omega
    have hone : (WaveSummary.single fin (sample fin)).count ≠ 0 := Nat.one_ne_zero
    obtain ⟨hlast, -, -, hlastBits⟩ := merge_last hcount hone
    obtain ⟨hfirst, -, -, hfirstBits⟩ := merge_first hcount hone
    rw [scanOf_succ sample (by omega)]
    refine ⟨?_, hfirst.trans ih.first, hlast, hfirstBits.trans ih.firstBits, hlastBits⟩
    rw [merge_count, ih.count]
    change _ + 1 = _
    omega

theorem scanOf_count_ne_zero {begin fin : ℕ} (h : begin < fin) :
    (scanOf sample begin fin).count ≠ 0 := by
  rw [(scanOf_ends h).count]
  omega

theorem single_count_ne_zero (i : ℕ) (one : WaveSample α) : (WaveSummary.single i one).count ≠ 0 :=
  Nat.one_ne_zero

/-! ### Bits -/

theorem scanOf_succ_bits {begin fin : ℕ} (h : begin < fin) :
    (scanOf sample begin (fin + 1)).bitsAnd =
        (scanOf sample begin fin).bitsAnd &&& bitsOf sample fin ∧
      (scanOf sample begin (fin + 1)).bitsOr =
        (scanOf sample begin fin).bitsOr ||| bitsOf sample fin := by
  obtain ⟨-, -, hand, hor⟩ :=
    merge_fields (scanOf_count_ne_zero h) (single_count_ne_zero fin (sample fin))
  rw [scanOf_succ sample (by omega)]
  exact ⟨hand, hor⟩

/-- A range that is one longer. -/
theorem forall_range_succ {p : ℕ → Prop} {begin fin : ℕ} (h : begin ≤ fin) :
    (∀ i, begin ≤ i → i < fin + 1 → p i) ↔ (∀ i, begin ≤ i → i < fin → p i) ∧ p fin := by
  constructor
  · exact fun hall => ⟨fun i hle hlt => hall i hle (by omega), hall fin h (Nat.lt_succ_self _)⟩
  · rintro ⟨hbefore, hlast⟩ i hle hlt
    rcases Nat.lt_succ_iff_lt_or_eq.mp hlt with hi | rfl
    · exact hbefore i hle hi
    · exact hlast

theorem scanOf_bitsAnd {begin fin : ℕ} (h : begin < fin) (bit : ℕ) :
    (scanOf sample begin fin).bitsAnd.toNat.testBit bit = true ↔
      ∀ i, begin ≤ i → i < fin → (bitsOf sample i).toNat.testBit bit = true := by
  induction fin, h using Nat.le_induction with
  | base =>
    rw [scanOf_one, forall_range_succ (Nat.le_refl _), and_iff_right (by omega)]
    rfl
  | succ fin h ih =>
    rw [(scanOf_succ_bits h).1, UInt64.toNat_and, Nat.testBit_and, Bool.and_eq_true, ih,
      forall_range_succ (by omega)]

theorem scanOf_bitsOr {begin fin : ℕ} (h : begin < fin) (bit : ℕ) :
    (scanOf sample begin fin).bitsOr.toNat.testBit bit = false ↔
      ∀ i, begin ≤ i → i < fin → (bitsOf sample i).toNat.testBit bit = false := by
  induction fin, h using Nat.le_induction with
  | base =>
    rw [scanOf_one, forall_range_succ (Nat.le_refl _), and_iff_right (by omega)]
    rfl
  | succ fin h ih =>
    rw [(scanOf_succ_bits h).2, UInt64.toNat_or, Nat.testBit_or, Bool.or_eq_false_iff, ih,
      forall_range_succ (by omega)]

/-- **Conjunction and disjunction agree in a bit where no value differs from the first.** -/
theorem scanOf_constant {begin fin : ℕ} (h : begin < fin) (bit : ℕ) :
    ((scanOf sample begin fin).bitsAnd ^^^ (scanOf sample begin fin).bitsOr).toNat.testBit bit =
        false ↔
      ∀ i, begin ≤ i → i < fin →
        (bitsOf sample i).toNat.testBit bit = (bitsOf sample begin).toNat.testBit bit := by
  have hand := @scanOf_bitsAnd _ _ sample _ _ h bit
  have hor := @scanOf_bitsOr _ _ sample _ _ h bit
  rw [UInt64.toNat_xor, Nat.testBit_xor]
  constructor
  · intro hsame i hle hlt
    cases hbit : (bitsOf sample begin).toNat.testBit bit with
    | true =>
      have hset : (scanOf sample begin fin).bitsOr.toNat.testBit bit = true := by
        by_contra hc
        rw [Bool.not_eq_true] at hc
        rw [hor.mp hc begin (Nat.le_refl _) h] at hbit
        cases hbit
      rw [hset] at hsame
      exact hand.mp (by simpa using hsame) i hle hlt
    | false =>
      have hclear : (scanOf sample begin fin).bitsAnd.toNat.testBit bit = false := by
        rw [Bool.eq_false_iff]
        intro hc
        rw [hand.mp hc begin (Nat.le_refl _) h] at hbit
        cases hbit
      rw [hclear] at hsame
      exact hor.mp (by simpa using hsame) i hle hlt
  · intro hsame
    cases hbit : (bitsOf sample begin).toNat.testBit bit with
    | true =>
      have hand' := hand.mpr fun i hle hlt => (hsame i hle hlt).trans hbit
      have hor' : (scanOf sample begin fin).bitsOr.toNat.testBit bit = true := by
        by_contra hc
        rw [Bool.not_eq_true] at hc
        rw [hor.mp hc begin (Nat.le_refl _) h] at hbit
        cases hbit
      rw [hand', hor']
      rfl
    | false =>
      have hor' := hor.mpr fun i hle hlt => (hsame i hle hlt).trans hbit
      have hand' : (scanOf sample begin fin).bitsAnd.toNat.testBit bit = false := by
        rw [Bool.eq_false_iff]
        intro hc
        rw [hand.mp hc begin (Nat.le_refl _) h] at hbit
        cases hbit
      rw [hand', hor']
      rfl

/-! ### Extreme values -/

/-- What a scan says about one of its extremes: where it is, and that no finite value is
better. -/
structure ScanExtreme (better : α → α → Bool) (sample : ℕ → WaveSample α) (begin fin : ℕ)
    (extreme : α × ℕ) : Prop where
  inside : begin ≤ extreme.2 ∧ extreme.2 < fin
  value : extreme.1 = (sample extreme.2).value
  best : ∀ i, begin ≤ i → i < fin → isFinite (sample i).value = true →
    isFinite extreme.1 = true ∧ better (sample i).value extreme.1 = false

section Extremes

variable {better : α → α → Bool}

theorem ScanExtreme.single (hirrefl : ∀ a, better a a = false) (i : ℕ) :
    ScanExtreme better sample i (i + 1) ((sample i).value, i) := by
  refine ⟨⟨Nat.le_refl _, Nat.lt_succ_self _⟩, rfl, ?_⟩
  intro j hle hlt hfinite
  obtain rfl : j = i := by omega
  exact ⟨hfinite, hirrefl _⟩

theorem ScanExtreme.succ (hirrefl : ∀ a, better a a = false)
    (htrans : ∀ {a b c : α}, better a b = true → better b c = true → better a c = true)
    {begin fin : ℕ} {extreme : α × ℕ} (h : ScanExtreme better sample begin fin extreme) :
    ScanExtreme better sample begin (fin + 1)
      (Library.Selection.pick (extremeBeats better) ((sample fin).value, fin) extreme) := by
  have hle : begin ≤ fin := by
    have := h.inside
    omega
  by_cases hbeats : extremeBeats better ((sample fin).value, fin) extreme = true
  · rw [Library.Selection.pick_of_beats hbeats]
    obtain ⟨hbetter, hfinite⟩ := replaces_iff.mp hbeats
    refine ⟨⟨hle, Nat.lt_succ_self _⟩, rfl, ?_⟩
    intro i hi hlt hfin
    refine ⟨hfinite, ?_⟩
    rcases Nat.lt_or_ge i fin with hlast | hlast
    · obtain ⟨hextreme, hnot⟩ := h.best i hi hlast hfin
      rw [Bool.eq_false_iff]
      intro hc
      rcases hbetter with hbetter | hinfinite
      · rw [htrans hc hbetter] at hnot
        cases hnot
      · rw [hextreme] at hinfinite
        cases hinfinite
    · obtain rfl : i = fin := by omega
      exact hirrefl _
  · rw [Library.Selection.pick_of_not_beats hbeats]
    refine ⟨⟨h.inside.1, Nat.lt_succ_of_lt h.inside.2⟩, h.value, ?_⟩
    intro i hi hlt hfin
    rcases Nat.lt_or_ge i fin with hlast | hlast
    · exact h.best i hi hlast hfin
    · obtain rfl : i = fin := by omega
      have hnot : ¬ replaces better (sample i).value extreme.1 = true := hbeats
      rw [replaces_iff] at hnot
      push Not at hnot
      refine ⟨?_, ?_⟩
      · by_contra hc
        exact hnot (.inr (by simpa using hc)) hfin
      · rw [Bool.eq_false_iff]
        intro hc
        exact hnot (.inl hc) hfin

end Extremes

section Lawful

variable [LawfulWaveScalar α] {begin fin : ℕ}

theorem scanOf_least (h : begin < fin) :
    ScanExtreme lt sample begin fin (leastValue (scanOf sample begin fin)) := by
  induction fin, h using Nat.le_induction with
  | base =>
    rw [scanOf_one]
    exact ScanExtreme.single LawfulWaveScalar.lt_irrefl begin
  | succ fin h ih =>
    rw [scanOf_succ sample (by omega),
      merge_leastValue (scanOf_count_ne_zero h) (single_count_ne_zero _ _)]
    exact ih.succ LawfulWaveScalar.lt_irrefl LawfulWaveScalar.lt_trans

theorem scanOf_greatest (h : begin < fin) :
    ScanExtreme (fun a b => lt b a) sample begin fin (greatestValue (scanOf sample begin fin)) := by
  have hirrefl : ∀ a : α, lt a a = false := LawfulWaveScalar.lt_irrefl
  have htrans : ∀ {a b c : α}, lt b a = true → lt c b = true → lt c a = true :=
    fun hab hbc => LawfulWaveScalar.lt_trans hbc hab
  induction fin, h using Nat.le_induction with
  | base =>
    rw [scanOf_one]
    exact @ScanExtreme.single _ _ sample (fun a b => lt b a) hirrefl begin
  | succ fin h ih =>
    rw [scanOf_succ sample (by omega),
      merge_greatestValue (scanOf_count_ne_zero h) (single_count_ne_zero _ _)]
    exact @ScanExtreme.succ _ _ sample (fun a b => lt b a) hirrefl htrans _ _ _ ih

/-! ### Jumps -/

/-- A jump that a scan reports lies between two samples of the range. -/
def JumpInside (begin fin : ℕ) (jump : α × ℕ) : Prop :=
  lt zero jump.1 = true → begin ≤ jump.2 ∧ jump.2 + 1 < fin

omit [LawfulWaveScalar α] in
theorem JumpInside.keep {p q : α × ℕ} (hp : JumpInside begin fin p) (hq : JumpInside begin fin q) :
    JumpInside begin fin (keep p.1 p.2 q) := by
  unfold Plot.keep
  split
  · exact hp
  · exact hq

theorem joinJumps_inside {strength : α → α} (h : begin < fin) {left : α × ℕ}
    (hleft : JumpInside begin fin left) :
    JumpInside begin (fin + 1) (joinJumps strength (scanOf sample begin fin)
      (WaveSummary.single fin (sample fin)) left (zero, 0)) := by
  have hzero : JumpInside begin (fin + 1) ((zero, 0) : α × ℕ) := fun hc =>
    absurd hc (not_lt_self zero)
  have hwider : JumpInside begin (fin + 1) left := by
    intro hpos
    have := hleft hpos
    omega
  refine JumpInside.keep ?_ (hzero.keep hwider)
  unfold borderJump
  split
  · dsimp only
    split
    · intro _
      rw [(scanOf_ends h).last]
      dsimp only
      omega
    · exact hzero
  · exact hzero

theorem scanOf_rise (h : begin < fin) :
    JumpInside begin fin (scanOf sample begin fin).riseJump := by
  induction fin, h using Nat.le_induction with
  | base =>
    rw [scanOf_one]
    exact fun hc => absurd hc (not_lt_self zero)
  | succ fin h ih =>
    rw [scanOf_succ sample (by omega),
      merge_riseJump (scanOf_count_ne_zero h) (single_count_ne_zero _ _)
        (scanOf_wellFormed sample begin fin)]
    exact joinJumps_inside h ih

theorem scanOf_fall (h : begin < fin) :
    JumpInside begin fin (scanOf sample begin fin).fallJump := by
  induction fin, h using Nat.le_induction with
  | base =>
    rw [scanOf_one]
    exact fun hc => absurd hc (not_lt_self zero)
  | succ fin h ih =>
    rw [scanOf_succ sample (by omega),
      merge_fallJump (scanOf_count_ne_zero h) (single_count_ne_zero _ _)
        (scanOf_wellFormed sample begin fin)]
    exact joinJumps_inside h ih

end Lawful

end ProtoScope.Plot
