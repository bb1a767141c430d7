/-
How often a bit changes.

A block of a digital channel keeps, for every bit, the number of changes between two
neighbours inside it.  A range therefore has three parts: what changes inside its first
half, what changes inside its second, and what may change at the border between them.
That is a range summary like the scan itself, so the same account of aligned blocks shows
that every level holds the right counts; the walk of `bitTransitions` then adds blocks,
single samples and the borders it passes.
-/
import ProtoScope.Proofs.Plot.ScanFields
import ProtoScope.Proofs.Plot.WaveIndex

namespace ProtoScope.Plot

open ProtoScope.Library.BlockSummaries WaveSummaryIndex RangeSummary

/-! ### Counting changes -/

def differs (bit : ℕ) (a b : UInt64) : Bool := a.toNat.testBit bit != b.toNat.testBit bit

/-- The number of neighbours in `[begin, fin)` that differ in the bit. -/
def changes (bits : ℕ → UInt64) (bit begin fin : ℕ) : ℕ :=
  (List.range' (begin + 1) (fin - (begin + 1))).countP fun i => differs bit (bits (i - 1)) (bits i)

section Changes

variable {bits : ℕ → UInt64} {bit a b c : ℕ}

theorem changes_short (h : b ≤ a + 1) : changes bits bit a b = 0 := by
  rw [changes, Nat.sub_eq_zero_of_le h]
  rfl

/-- The border of two ranges that meet is one pair more. -/
theorem changes_append (hab : a < b) (hbc : b < c) :
    changes bits bit a c =
      changes bits bit a b + (differs bit (bits (b - 1)) (bits b)).toNat +
        changes bits bit b c := by
  have hlength : c - (a + 1) = (b - (a + 1)) + (1 + (c - (b + 1))) := by omega
  have hmiddle : a + 1 + (b - (a + 1)) = b := by omega
  unfold changes
  rw [hlength, ← List.range'_append_1, hmiddle, ← List.range'_append_1, List.countP_append,
    List.countP_append, Nat.add_assoc]
  congr 2

end Changes

theorem xor_testBit (a b : UInt64) (bit : ℕ) : (a ^^^ b).toNat.testBit bit = differs bit a b := by
  rw [UInt64.toNat_xor, Nat.testBit_xor]
  rfl

theorem getElem_addBoundary (a b : UInt64) (counts : BitCounts) (bit : ℕ) (hbit : bit < 64) :
    (addBoundary (a ^^^ b) counts)[bit] = counts[bit] + (differs bit a b).toNat := by
  unfold addBoundary
  simp only [Fin.getElem_fin, Vector.getElem_ofFn, Nat.add_left_cancel_iff]
  have hshift := shift_and_one_eq (a ^^^ b) ⟨bit, hbit⟩
  rw [xor_testBit] at hshift
  by_cases h : differs bit a b = true
  · rw [if_pos (hshift.mpr h), h]
    rfl
  · rw [if_neg (fun hc => h (hshift.mp hc)), Bool.eq_false_iff.mpr h]
    rfl

/-! ### Counts of ranges -/

abbrev noCounts : BitCounts := Vector.replicate 64 0

/-- The changes inside a range, bit by bit, with the values at its two ends. -/
structure BitSpan where
  counts : BitCounts := noCounts
  ends : Option (UInt64 × UInt64) := none

/-- What is inside the two spans and, where they meet, across their border. -/
def BitSpan.merge (a b : BitSpan) : BitSpan :=
  match a.ends, b.ends with
  | _, none => a
  | none, some _ => b
  | some (first, last), some (first', last') =>
    { counts := addBoundary (last ^^^ first') (Vector.zipWith (· + ·) a.counts b.counts)
      ends := some (first, last') }

def countsOf (bits : ℕ → UInt64) (begin fin : ℕ) : BitCounts :=
  Vector.ofFn fun bit => changes bits bit begin fin

def spanOf (bits : ℕ → UInt64) (begin fin : ℕ) : BitSpan :=
  if begin < fin then ⟨countsOf bits begin fin, some (bits begin, bits (fin - 1))⟩ else {}

section Spans

variable {bits : ℕ → UInt64} {a b c : ℕ}

theorem spanOf_empty (h : b ≤ a) : spanOf bits a b = {} := if_neg (Nat.not_lt.mpr h)

theorem getElem_countsOf (bit : ℕ) (hbit : bit < 64) :
    (countsOf bits a b)[bit] = changes bits bit a b := by
  simp [countsOf]

theorem spanOf_counts : (spanOf bits a b).counts = countsOf bits a b := by
  unfold spanOf
  split
  · rfl
  · ext bit hbit
    rw [getElem_countsOf, changes_short (by omega)]
    simp

theorem merge_spanOf (hab : a ≤ b) (hbc : b ≤ c) :
    (spanOf bits a b).merge (spanOf bits b c) = spanOf bits a c := by
  rcases Nat.eq_or_lt_of_le hbc with rfl | hbc
  · rw [spanOf_empty (Nat.le_refl b)]
    unfold BitSpan.merge
    split <;> trivial
  · rcases Nat.eq_or_lt_of_le hab with rfl | hab
    · rw [spanOf_empty (Nat.le_refl a), spanOf, if_pos hbc]
      rfl
    · unfold spanOf
      rw [if_pos hab, if_pos hbc, if_pos (hab.trans hbc)]
      simp only [BitSpan.merge, BitSpan.mk.injEq, and_true]
      ext bit hbit
      rw [getElem_addBoundary, getElem_countsOf, changes_append hab hbc, Vector.getElem_zipWith,
        getElem_countsOf, getElem_countsOf]
      omega

/-- The changes of a sequence as a summary of its ranges. -/
def spanSummary (bits : ℕ → UInt64) : RangeSummary BitSpan where
  merge := BitSpan.merge
  empty := {}
  of := spanOf bits
  of_empty := spanOf_empty
  merge_of := merge_spanOf

end Spans

/-! ### What a level is rebuilt from -/

variable {α : Type} [WaveScalar α]

section Source

variable {bits : ℕ → UInt64} {lo hi width : ℕ}

theorem foldl_addBoundary (bits : ℕ → UInt64) (bit : ℕ) (hbit : bit < 64) :
    ∀ (ids : List ℕ) (counts : BitCounts),
      (ids.foldl (fun counts i => addBoundary (bits (i - 1) ^^^ bits i) counts) counts)[bit] =
        counts[bit] + ids.countP fun i => differs bit (bits (i - 1)) (bits i) := by
  intro ids
  induction ids with
  | nil =>
    intro counts
    rfl
  | cons i ids ih =>
    intro counts
    rw [List.foldl_cons, ih, getElem_addBoundary, List.countP_cons]
    cases differs bit (bits (i - 1)) (bits i) <;> simp
    omega

/-- The lowest level counts in the samples. -/
theorem counts_base (samples : List (WaveSample α)) (offset newEnd width id : ℕ) :
    (RebuildSource.mk samples offset newEnd width none).counts id =
      ((spanSummary (bitsOf (sampleAt samples offset))).block offset newEnd width id).counts := by
  ext bit hbit
  refine (foldl_addBoundary (bitsOf (sampleAt samples offset)) bit hbit _ _).trans ?_
  have hspan : ((spanSummary (bitsOf (sampleAt samples offset))).block offset newEnd width
      id).counts = countsOf _ _ _ := spanOf_counts
  rw [hspan, getElem_countsOf]
  simp [changes]

/-- The counts of a level are right: those of all blocks that meet the window, in order. -/
def CountsExact (bits : ℕ → UInt64) (lo hi width : ℕ) (level : Level α) : Prop :=
  level.transitions = some (((spanSummary bits).blocks lo hi width).map (·.counts))

/-- One turn of the loop over the two children of a block. -/
def countChild (child : Level α) (state : BitCounts × Option (WaveSummary α)) (id : ℕ) :
    BitCounts × Option (WaveSummary α) :=
  match child.block? id with
  | none => state
  | some summary =>
    let inner := ((child.transitions.getD []).getD (id - child.firstBlock)
      (Vector.replicate 64 0))
    let counts := Vector.zipWith (· + ·) state.1 inner
    match state.2 with
    | some previous => (addBoundary (previous.lastBits ^^^ summary.firstBits) counts, some summary)
    | none => (counts, some summary)

/-- What the loop holds of the span it has passed. -/
structure Tracks (state : BitCounts × Option (WaveSummary α)) (span : BitSpan) : Prop where
  counts : state.1 = span.counts
  last : state.2.map (·.lastBits) = span.ends.map (·.2)
  zero : span.ends = none → span.counts = noCounts

theorem block_lt (hwidth : 0 < width) (hlt : lo < hi) {id : ℕ}
    (h : lo / width ≤ id ∧ id ≤ (hi - 1) / width) :
    max lo (id * width) < min hi ((id + 1) * width) := by
  have hlo : lo < (id + 1) * width := by
    rw [← Nat.div_lt_iff_lt_mul hwidth]
    omega
  have hhi : id * width < hi := by
    have hle := (Nat.le_div_iff_mul_le hwidth).mp h.2
    omega
  have hstep : id * width < (id + 1) * width := Nat.mul_lt_mul_of_pos_right (by omega) hwidth
  omega

variable {sample : ℕ → WaveSample α}

theorem Tracks.child [LawfulWaveScalar α] {child : Level α} {span : BitSpan}
    {state : BitCounts × Option (WaveSummary α)} (h : Tracks state span)
    (hwidth : 0 < width) (hlt : lo < hi)
    (hchild : LevelExact (scanSummary sample) lo hi width child)
    (hcounts : CountsExact (bitsOf sample) lo hi width child) (id : ℕ) :
    Tracks (countChild child state id)
      (span.merge ((spanSummary (bitsOf sample)).block lo hi width id)) := by
  unfold countChild
  rw [hchild.block? hlt]
  by_cases hid : lo / width ≤ id ∧ id ≤ (hi - 1) / width
  · rw [if_pos hid]
    have hblock := block_lt hwidth hlt hid
    obtain ⟨-, -, -, hfirst, hlast⟩ := @scanOf_ends _ _ sample _ _ hblock
    have hinner : (child.transitions.getD []).getD (id - child.firstBlock) (Vector.replicate 64 0) =
        countsOf (bitsOf sample) (max lo (id * width)) (min hi ((id + 1) * width)) := by
      have hat : lo / width + (id - lo / width) = id := by omega
      rw [hcounts, Option.getD_some, hchild.firstBlock, List.getD_eq_getElem?_getD,
        List.getElem?_map, getElem?_blocks _ (by omega), hat]
      exact spanOf_counts
    have hspan : (spanSummary (bitsOf sample)).block lo hi width id =
        ⟨countsOf (bitsOf sample) (max lo (id * width)) (min hi ((id + 1) * width)),
          some (bitsOf sample (max lo (id * width)),
            bitsOf sample (min hi ((id + 1) * width) - 1))⟩ :=
      if_pos hblock
    obtain ⟨hstate, hends, hzero⟩ := h
    obtain ⟨counts, previous⟩ := state
    obtain ⟨total, ends⟩ := span
    dsimp only at hstate hends hzero ⊢
    subst hstate
    rw [hinner, hspan]
    cases previous with
    | none =>
      cases ends with
      | none =>
        refine ⟨?_, ?_, fun h => ?_⟩
        · ext bit hbit
          simp [BitSpan.merge, hzero rfl]
        · exact congrArg some hlast
        · cases h
      | some ends => cases hends
    | some previous =>
      cases ends with
      | none => cases hends
      | some ends =>
        refine ⟨?_, ?_, fun h => ?_⟩
        · have hprevious : previous.lastBits = ends.2 := by simpa using hends
          refine congrArg (addBoundary · _) ?_
          rw [hprevious]
          exact congrArg _ hfirst
        · exact congrArg some hlast
        · cases h
  · rw [if_neg hid, block_outside _ hwidth hlt hid]
    have hsame : span.merge (spanSummary (bitsOf sample)).empty = span := by
      unfold BitSpan.merge
      split <;> trivial
    rw [hsame]
    exact h

/-- A higher level adds its two halves and the border between them. -/
theorem counts_merge [LawfulWaveScalar α] {samples : List (WaveSample α)} {child : Level α}
    (hwidth : 0 < width) (hlt : lo < hi)
    (hchild : LevelExact (scanSummary sample) lo hi width child)
    (hcounts : CountsExact (bitsOf sample) lo hi width child) (id : ℕ) :
    (RebuildSource.mk samples lo hi (width * 2) (some child)).counts id =
      ((spanSummary (bitsOf sample)).block lo hi (width * 2) id).counts := by
  have hnone : Tracks ((noCounts, none) : BitCounts × Option (WaveSummary α)) {} :=
    ⟨rfl, rfl, fun _ => rfl⟩
  have hboth := (hnone.child hwidth hlt hchild hcounts (id * 2)).child hwidth hlt hchild hcounts
    (id * 2 + 1)
  have hleft : BitSpan.merge {} ((spanSummary (bitsOf sample)).block lo hi width (id * 2)) =
      (spanSummary (bitsOf sample)).block lo hi width (id * 2) :=
    (spanSummary (bitsOf sample)).empty_merge _ _
  rw [hleft] at hboth
  rw [← merge_halves]
  exact hboth.counts

end Source

/-! ### The levels follow the window -/

omit [WaveScalar α] in
theorem popBefore_transitions (first : ℕ) :
    ∀ (blocks : List (WaveSummary α)) (firstBlock : ℕ) (counts : List BitCounts),
      (Level.popBefore true first firstBlock blocks (some counts)).transitions =
        some (counts.drop (min (first - firstBlock) blocks.length)) := by
  intro blocks
  induction blocks with
  | nil =>
    intro firstBlock counts
    simp [Level.popBefore]
  | cons block blocks ih =>
    intro firstBlock counts
    unfold Level.popBefore
    split
    · have hmin : min (first - firstBlock) (block :: blocks).length =
          min (first - (firstBlock + 1)) blocks.length + 1 := by
        rw [List.length_cons]
        omega
      rw [if_pos rfl, Option.map_some, ih, hmin, List.drop_tail]
    · have hzero : min (first - firstBlock) (block :: blocks).length = 0 := by omega
      rw [hzero, List.drop_zero]

theorem rebuild_fold_transitions {source : RebuildSource α} {first : ℕ} :
    ∀ (ids : List ℕ) (level : Level α) (counts : List BitCounts), level.transitions = some counts →
      (ids.foldl (Level.rebuild true source first) level).transitions =
        some (ids.foldl (fun items id => items.set (id - first) (source.counts id)) counts) := by
  intro ids
  induction ids with
  | nil =>
    intro level counts h
    exact h
  | cons id ids ih =>
    intro level counts h
    apply ih
    simp [Level.rebuild, h]

/-- The counts of a level after it followed the window, as one list. -/
theorem synchronize_transitions (oldEnd : ℕ) (source : RebuildSource α) (level : Level α) :
    (level.synchronize true oldEnd source).transitions =
      some (refresh (source.offset / source.width) ((source.newEnd - 1) / source.width)
        (max (source.offset / source.width + 1) (oldEnd / source.width)) source.counts
        (Level.resized ((source.newEnd - 1) / source.width - source.offset / source.width + 1)
          noCounts
          ((Level.popBefore true (source.offset / source.width) level.firstBlock level.blocks
            level.transitions).transitions.getD []))) := by
  unfold Level.synchronize
  apply rebuild_fold_transitions
  simp [Level.rebuild]

section Follow

variable {bits₀ bits : ℕ → UInt64} {lo₀ hi₀ lo hi width : ℕ}

theorem spanOf_congr {a b : ℕ} (h : ∀ i, a ≤ i → i < b → bits₀ i = bits i) :
    spanOf bits₀ a b = spanOf bits a b := by
  unfold spanOf
  split
  · have hcounts : countsOf bits₀ a b = countsOf bits a b := by
      ext bit hbit
      rw [getElem_countsOf, getElem_countsOf]
      apply List.countP_congr
      intro i hi
      rw [List.mem_range'_1] at hi
      rw [h (i - 1) (by omega) (by omega), h i (by omega) (by omega)]
    rw [hcounts, h a (by omega) (by omega), h (b - 1) (by omega) (by omega)]
  · rfl

/-- What the level being rebuilt reads gives the counts of the new window. -/
def SourceCounts (samples : List (WaveSample α)) (lo hi width : ℕ) (child : Option (Level α)) :
    Prop :=
  ∀ id, (RebuildSource.mk samples lo hi width child).counts id =
    ((spanSummary (bitsOf (sampleAt samples lo))).block lo hi width id).counts

theorem blocks_counts :
    ((spanSummary bits).blocks lo hi width).map (·.counts) =
      (List.range' (lo / width) ((hi - 1) / width - lo / width + 1)).map fun id =>
        ((spanSummary bits).block lo hi width id).counts := by
  rw [blocks, List.map_map]
  rfl

theorem CountsExact.of_new {samples : List (WaveSample α)} {child : Option (Level α)} {oldEnd : ℕ}
    (hlt : lo < hi) (hold : oldEnd / width ≤ lo / width + 1)
    (hsource : SourceCounts samples lo hi width child) :
    CountsExact (bitsOf (sampleAt samples lo)) lo hi width
      (Level.synchronize true oldEnd ⟨samples, lo, hi, width, child⟩ {}) := by
  have hle : lo / width ≤ (hi - 1) / width := Nat.div_le_div_right (by omega)
  unfold CountsExact
  rw [synchronize_transitions, blocks_counts]
  refine congrArg some ?_
  dsimp only
  apply refresh_eq hle (by omega)
  · simp [Level.resized, Level.popBefore]
  · intro id _ _
    exact hsource id
  · intro i _ _ _
    omega

theorem CountsExact.synchronize [LawfulWaveScalar α] {samples : List (WaveSample α)}
    {sample : ℕ → WaveSample α} {child : Option (Level α)} {level : Level α}
    (hcounts : CountsExact (bitsOf sample) lo₀ hi₀ width level)
    (hexact : LevelExact (scanSummary sample) lo₀ hi₀ width level) (hwidth : 0 < width)
    (hlt : lo < hi) (hlo₀ : lo₀ ≤ lo) (hhi₀ : hi₀ ≤ hi)
    (hsame : ∀ i, lo ≤ i → i < hi₀ → sample i = sampleAt samples lo i)
    (hsource : SourceCounts samples lo hi width child) :
    CountsExact (bitsOf (sampleAt samples lo)) lo hi width
      (level.synchronize true hi₀ ⟨samples, lo, hi, width, child⟩) := by
  have hle : lo / width ≤ (hi - 1) / width := Nat.div_le_div_right (by omega)
  have hle₀ : lo₀ / width ≤ lo / width := Nat.div_le_div_right hlo₀
  have hdrop : (((spanSummary (bitsOf sample)).blocks lo₀ hi₀ width).map (·.counts)).drop
        (min (lo / width - lo₀ / width) level.blocks.length) =
      (((spanSummary (bitsOf sample)).blocks lo₀ hi₀ width).map (·.counts)).drop
        (lo / width - lo₀ / width) := by
    rw [hexact.blocks, length_blocks]
    rcases Nat.le_total (lo / width - lo₀ / width) ((hi₀ - 1) / width - lo₀ / width + 1) with h | h
    · rw [Nat.min_eq_left h]
    · rw [Nat.min_eq_right h, List.drop_of_length_le (by simp), List.drop_of_length_le (by simpa)]
  unfold CountsExact
  rw [synchronize_transitions, hcounts, popBefore_transitions, Option.getD_some, hexact.firstBlock,
    hdrop, @blocks_counts (bitsOf (sampleAt samples lo))]
  refine congrArg some ?_
  dsimp only
  apply refresh_eq hle (by omega)
  · simp [Level.resized]
    omega
  · intro id _ _
    exact hsource id
  · intro i hpos htail hlast
    apply kept_entry hwidth hlo₀ hhi₀ _ hpos (by omega) (by omega)
    intro a b ha hb
    apply spanOf_congr
    intro i hi hlti
    exact congrArg (fun sample : WaveSample α => waveRawBits sample.value)
      (hsame i (ha.trans hi) (by omega))

/-- The counts of all levels, from the one of the given width upwards. -/
def LevelsCounted (bits : ℕ → UInt64) (lo hi : ℕ) : ℕ → List (Level α) → Prop
  | _, [] => True
  | width, level :: levels =>
    CountsExact bits lo hi width level ∧ LevelsCounted bits lo hi (width * 2) levels

omit [WaveScalar α] in
theorem LevelsCounted.tail {levels : List (Level α)} (h : LevelsCounted bits lo hi width levels) :
    LevelsCounted bits lo hi (width * 2) levels.tail := by
  cases levels with
  | nil => trivial
  | cons level levels => exact h.2

variable [LawfulWaveScalar α] {samples : List (WaveSample α)} {sample : ℕ → WaveSample α}

theorem CountsExact.reusable {child : Option (Level α)} {levels : List (Level α)}
    (hwidth : 0 < width) (hlt : lo < hi) (hlo₀ : lo₀ ≤ lo) (hhi₀ : hi₀ ≤ hi)
    (hsame : ∀ i, lo ≤ i → i < hi₀ → sample i = sampleAt samples lo i)
    (hreuse : Reusable (scanSummary sample) lo₀ hi₀ lo width levels)
    (hcounted : LevelsCounted (bitsOf sample) lo₀ hi₀ width levels)
    (hsource : SourceCounts samples lo hi width child) :
    CountsExact (bitsOf (sampleAt samples lo)) lo hi width
      ((levels.headD {}).synchronize true hi₀ ⟨samples, lo, hi, width, child⟩) := by
  rcases hreuse with h | ⟨rfl, hle⟩
  · cases levels with
    | nil => exact h.elim
    | cons level levels =>
      exact hcounted.1.synchronize h.1 hwidth hlt hlo₀ hhi₀ hsame hsource
  · exact CountsExact.of_new hlt hle hsource

/-- **The counts follow the window on every level.**  Induction over the levels, beside
the blocks themselves. -/
theorem synchronizeLevels_counted (hlt : lo < hi) (hlo₀ : lo₀ ≤ lo) (hhi₀ : hi₀ ≤ hi)
    (hsame : ∀ i, lo ≤ i → i < hi₀ → sample i = sampleAt samples lo i) :
    ∀ (fuel width : ℕ) (child : Option (Level α)) (levels : List (Level α)), 0 < width →
      Reusable (scanSummary sample) lo₀ hi₀ lo width levels →
      LevelsCounted (bitsOf sample) lo₀ hi₀ width levels →
      SourceExact samples lo hi width child → SourceCounts samples lo hi width child →
      LevelsCounted (bitsOf (sampleAt samples lo)) lo hi width
        (synchronizeLevels true samples lo hi hi₀ fuel width child levels) := by
  intro fuel
  induction fuel with
  | zero =>
    intro width child levels _ _ _ _ _
    trivial
  | succ fuel ih =>
    intro width child levels hwidth hreuse hcounted hsource hcounts
    have hlevel := LevelExact.reusable true hwidth hlt hlo₀ hhi₀ hsame hreuse hsource
    have hcount := CountsExact.reusable hwidth hlt hlo₀ hhi₀ hsame hreuse hcounted hcounts
    unfold synchronizeLevels
    dsimp only
    split
    · exact ⟨hcount, trivial⟩
    · refine ⟨hcount, ih (width * 2) _ _ (by omega) (hreuse.tail hlo₀) hcounted.tail ?_ ?_⟩
      · exact fun id => summary_merge hwidth hlt hlevel id
      · exact fun id => counts_merge hwidth hlt hlevel hcount id

end Follow

/-! ### The walk -/

section Walk

variable [LawfulWaveScalar α] {sample : ℕ → WaveSample α} {lo hi : ℕ}

/-- A level that the walk takes a block from, at the place it has reached. -/
structure ChosenAt (sample : ℕ → WaveSample α) (lo hi begin fin width : ℕ) (level : Level α) :
    Prop where
  positive : 0 < width
  fits : begin + width ≤ fin
  aligned : begin / width * width = begin
  exact : LevelExact (scanSummary sample) lo hi width level
  counted : CountsExact (bitsOf sample) lo hi width level

/-- The block and its counts where the walk reads them. -/
theorem ChosenAt.entry {begin fin width : ℕ} {level : Level α}
    (h : ChosenAt sample lo hi begin fin width level) (hlo : lo ≤ begin) (hhi : fin ≤ hi) :
    level.blocks.getD (begin / width - level.firstBlock) WaveSummary.empty =
        scanOf sample begin (begin + width) ∧
      (level.transitions.getD []).getD (begin / width - level.firstBlock)
          (Vector.replicate 64 0) =
        countsOf (bitsOf sample) begin (begin + width) := by
  obtain ⟨hwidth, hfits, haligned, hexact, hcounts⟩ := h
  have hnext : (begin / width + 1) * width = begin + width := by
    rw [Nat.add_mul, haligned, Nat.one_mul]
  have hfirst : lo / width ≤ begin / width := Nat.div_le_div_right hlo
  have hlast : begin / width ≤ (hi - 1) / width := Nat.div_le_div_right (by omega)
  have hid : lo / width + (begin / width - lo / width) = begin / width := by omega
  rw [hexact.firstBlock]
  constructor
  · rw [hexact.blocks, List.getD_eq_getElem?_getD, getElem?_blocks _ (by omega), hid,
      block_of_inside _ (by omega) (by omega), haligned, hnext]
    rfl
  · rw [hcounts, Option.getD_some, List.getD_eq_getElem?_getD, List.getElem?_map,
      getElem?_blocks _ (by omega), hid,
      block_of_inside _ (by omega) (by omega), haligned, hnext]
    exact spanOf_counts

theorem selectLevel_spec {begin fin : ℕ} (hbegin : begin < fin) :
    ∀ (levels : List (Level α)) (width : ℕ) (selected : Option (ℕ × Level α)), 0 < width →
      (levels = [] ∨ LevelsExact (scanSummary sample) lo hi width levels) →
      LevelsCounted (bitsOf sample) lo hi width levels →
      (∀ chosen, selected = some chosen → ChosenAt sample lo hi begin fin chosen.1 chosen.2) →
      ∀ chosen, selectLevel begin fin width levels selected = some chosen →
        ChosenAt sample lo hi begin fin chosen.1 chosen.2 := by
  intro levels
  induction levels with
  | nil =>
    intro width selected _ _ _ hselected chosen hchosen
    exact hselected chosen hchosen
  | cons level levels ih =>
    intro width selected hwidth hlevels hcounted hselected chosen hchosen
    obtain ⟨hlevel, hrest⟩ : LevelsExact (scanSummary sample) lo hi width (level :: levels) := by
      rcases hlevels with h | h
      · cases h
      · exact h
    unfold selectLevel at hchosen
    split at hchosen
    · exact hselected chosen hchosen
    · rename_i hfits
      have haligned : begin / width * width = begin := Nat.div_mul_cancel
        (Nat.dvd_of_mod_eq_zero (by omega))
      refine ih (width * 2) _ (by omega) ?_ hcounted.2 ?_ chosen hchosen
      · split at hrest
        · exact .inl hrest
        · exact .inr hrest
      · intro chosen' hchosen'
        split at hchosen'
        · split at hchosen'
          · cases hchosen'
            exact ⟨hwidth, by dsimp only; omega, haligned, hlevel, hcounted.1⟩
          · exact hselected chosen' hchosen'
        · exact hselected chosen' hchosen'

/-- What the walk has counted when it stands at `begin`. -/
structure Walked (bits : ℕ → UInt64) (bit : Fin 64) (begin₀ begin : ℕ)
    (walk : WaveSummaryIndex.TransitionWalk) : Prop where
  result : walk.result = changes bits bit begin₀ begin
  previous : walk.previous = if begin₀ < begin then some (bits (begin - 1)) else none

/-- The border between what has been passed and a range that starts here. -/
theorem Walked.joint {bits : ℕ → UInt64} {bit : Fin 64} {begin₀ begin fin : ℕ}
    {walk : WaveSummaryIndex.TransitionWalk} (h : Walked bits bit begin₀ begin walk)
    (hle : begin₀ ≤ begin) (hlt : begin < fin) :
    walk.result + changes bits bit begin fin +
        walk.joint ((1 : UInt64) <<< UInt64.ofNat bit) (bits begin) =
      changes bits bit begin₀ fin := by
  unfold WaveSummaryIndex.TransitionWalk.joint
  rw [h.previous, h.result]
  rcases Nat.eq_or_lt_of_le hle with rfl | hlt₀
  · rw [if_neg (Nat.lt_irrefl _), changes_short (Nat.le_succ _), Nat.zero_add]
    rfl
  · rw [if_pos hlt₀, changes_append hlt₀ hlt]
    have hmask := and_mask_ne_zero (bits (begin - 1) ^^^ bits begin) bit
    rw [xor_testBit] at hmask
    dsimp only
    by_cases hdiffers : differs bit (bits (begin - 1)) (bits begin) = true
    · rw [if_pos (hmask.mpr hdiffers), hdiffers, Bool.toNat_true]
      omega
    · rw [if_neg (fun hc => hdiffers (hmask.mp hc)), Bool.eq_false_iff.mpr hdiffers,
        Bool.toNat_false]
      omega

/-- **The walk counts every pair once**, whichever blocks it takes. -/
theorem transitionsLoop_result {index : WaveSummaryIndex α} {samples : List (WaveSample α)}
    {bit : Fin 64} {begin₀ fin : ℕ}
    (hlevels : index.levels_ = [] ∨
      LevelsExact (scanSummary (sampleAt samples lo)) lo hi blockSize index.levels_)
    (hcounted : index.digital_ = true →
      LevelsCounted (bitsOf (sampleAt samples lo)) lo hi blockSize index.levels_)
    (hhi : fin ≤ hi) :
    ∀ (fuel begin : ℕ) (walk : WaveSummaryIndex.TransitionWalk), lo ≤ begin → begin₀ ≤ begin →
      begin ≤ fin → fin - begin ≤ fuel →
      Walked (bitsOf (sampleAt samples lo)) bit begin₀ begin walk →
      (index.transitionsLoop samples lo fin bit fuel begin walk).result =
        changes (bitsOf (sampleAt samples lo)) bit begin₀ fin := by
  intro fuel
  induction fuel with
  | zero =>
    intro begin walk _ _ hle hfuel hwalk
    obtain rfl : begin = fin := by omega
    exact hwalk.result
  | succ fuel ih =>
    intro begin walk hlo hbegin hle hfuel hwalk
    unfold transitionsLoop
    by_cases h : begin < fin
    · dsimp only
      rw [if_pos h]
      split
      · rename_i width level hselect
        have hdigital : index.digital_ = true := by
          by_contra hc
          rw [if_neg hc] at hselect
          cases hselect
        rw [if_pos hdigital] at hselect
        have hchosen := selectLevel_spec h index.levels_ blockSize none (by decide) hlevels
          (hcounted hdigital) (by simp) _ hselect
        dsimp only at hchosen
        obtain ⟨hsummary, hinner⟩ := hchosen.entry hlo hhi
        have hwidth := hchosen.positive
        have hfits := hchosen.fits
        obtain ⟨-, -, -, hfirst, hlastBits⟩ :=
          @scanOf_ends _ _ (sampleAt samples lo) _ _ (by omega : begin < begin + width)
        rw [hsummary, hinner]
        refine ih _ _ (by omega) (by omega) hfits (by omega) ⟨?_, ?_⟩
        · dsimp only
          rw [Fin.getElem_fin, getElem_countsOf, hfirst]
          exact hwalk.joint hbegin (by omega)
        · rw [if_pos (by omega), hlastBits]
      · refine ih _ _ (by omega) (by omega) h (by omega) ⟨?_, ?_⟩
        · have hjoint := hwalk.joint hbegin (Nat.lt_succ_self begin)
          rw [changes_short (Nat.le_refl _), Nat.add_zero] at hjoint
          exact hjoint
        · rw [if_pos (by omega), Nat.add_sub_cancel]
          rfl
    · obtain rfl : begin = fin := by omega
      dsimp only
      rw [if_neg h]
      exact hwalk.result

end Walk

/-! ### The index over a run -/

/-- While the index is digital, its counts are right for the window. -/
def Counted (index : WaveSummaryIndex α) (samples : List (WaveSample α)) (offset : ℕ) : Prop :=
  index.digital_ = true →
    LevelsCounted (bitsOf (sampleAt samples offset)) offset (offset + samples.length) blockSize
      index.levels_

section Counted

variable [LawfulWaveScalar α] {index : WaveSummaryIndex α} {samples : List (WaveSample α)}
  {offset : ℕ}

omit [LawfulWaveScalar α] in
theorem Counted.of_no_levels (h : index.levels_ = []) : Counted index samples offset := by
  intro _
  rw [h]
  trivial

theorem Synced.counted_follow {samples' : List (WaveSample α)} {offset' : ℕ}
    (h : Synced index samples offset) (hcounted : Counted index samples offset)
    (hsame : ∀ i, offset ≤ i → offset' ≤ i → i < offset + samples.length →
      sampleAt samples offset i = sampleAt samples' offset' i) :
    Counted (index.follow samples' offset') samples' offset' := by
  unfold WaveSummaryIndex.follow
  cases hempty : samples'.isEmpty
  · have hne : samples' ≠ [] := by
      simpa using hempty
    have hpos : 0 < samples'.length := List.length_pos_iff.mpr hne
    rw [if_neg Bool.false_ne_true]
    dsimp only
    by_cases hclear : offset' < index.begin_ ∨ offset' + samples'.length < index.end_ ∨
        index.end_ ≤ offset'
    · rw [if_pos hclear]
      intro hdigital
      dsimp only at hdigital ⊢
      rw [hdigital]
      have hreuse := (clear_synced index samples offset).reusable offset'
      refine synchronizeLevels_counted (by omega) (Nat.zero_le _) (Nat.zero_le _) ?_ _ blockSize _ _
        (by decide) hreuse trivial (summary_base offset' _ _) (counts_base _ offset' _ _)
      intro i _ hi
      exact absurd hi (Nat.not_lt_zero i)
    · rw [if_neg hclear]
      intro hdigital
      dsimp only at hdigital ⊢
      rw [hdigital]
      have hreuse := h.reusable offset'
      rcases h with ⟨-, -, hend⟩ | ⟨-, hbegin, hend, -⟩
      · omega
      · have hold := hcounted hdigital
        rw [← hend, ← hbegin] at hold
        rw [hbegin] at hold hreuse
        refine synchronizeLevels_counted (by omega) (by omega) (by omega) ?_ _ blockSize _ _
          (by decide) hreuse hold (summary_base offset' _ _) (counts_base _ offset' _ _)
        intro i hi hlt
        exact hsame i (by omega) hi (by omega)
  · rw [if_pos rfl]
    exact Counted.of_no_levels rfl

theorem SampleWindow.step_counted {window : SampleWindow α}
    (h : Synced window.index window.samples window.offset)
    (hcounted : Counted window.index window.samples window.offset) (step : WindowStep α) :
    Counted (window.step step).index (window.step step).samples (window.step step).offset := by
  cases step with
  | slide dropped appended digital =>
    refine (h.digital digital).counted_follow ?_ ?_
    · split
      · rename_i hsame
        intro hdigital
        exact hcounted (hsame.trans hdigital)
      · exact Counted.of_no_levels rfl
    · intro i _ hoffset hi
      exact sampleAt_slide hoffset hi
  | reset offset => exact Counted.of_no_levels rfl

theorem SampleWindow.run_counted (steps : List (WindowStep α)) :
    Counted (run steps).index (run steps).samples (run steps).offset := by
  have key : ∀ window : SampleWindow α, Synced window.index window.samples window.offset →
      Counted window.index window.samples window.offset →
      Counted (steps.foldl step window).index (steps.foldl step window).samples
        (steps.foldl step window).offset := by
    induction steps with
    | nil =>
      intro window _ h
      exact h
    | cons step steps ih =>
      intro window h hcounted
      exact ih _ (step_synced h step) (step_counted h hcounted step)
  exact key {} (.inl ⟨rfl, rfl, rfl⟩) (Counted.of_no_levels rfl)

/-- **Counting with an index that is right counts the pairs of the range.** -/
theorem Synced.bitTransitions_eq (h : Synced index samples offset)
    (hcounted : Counted index samples offset) (begin fin bit : ℕ) (counters : WaveQueryCounters) :
    (index.bitTransitions samples offset begin fin bit counters).1 =
      changes (bitsOf (sampleAt samples offset)) bit (min begin samples.length + offset)
        (min fin samples.length + offset) := by
  unfold bitTransitions
  by_cases hbit : bit < 64
  · rw [dif_pos hbit]
    dsimp only
    by_cases hle : min begin samples.length ≤ min fin samples.length
    · have hlevels : index.levels_ = [] ∨
          LevelsExact (scanSummary (sampleAt samples offset)) offset (offset + samples.length)
            blockSize index.levels_ := by
        rcases h with h | h
        · exact .inl h.1
        · exact .inr h.2.2.2
      refine transitionsLoop_result hlevels hcounted (by omega) _ _ _ (by omega) (Nat.le_refl _)
        (by omega) (Nat.le_refl _) ⟨?_, ?_⟩
      · rw [changes_short (Nat.le_succ _)]
      · rw [if_neg (Nat.lt_irrefl _)]
    · rw [Nat.sub_eq_zero_of_le (by omega), changes_short (by omega)]
      rfl
  · rw [dif_neg hbit]
    dsimp only
    have hnever : ∀ x y : UInt64, differs bit x y = false := by
      intro x y
      have hbound : ∀ z : UInt64, z.toNat.testBit bit = false := by
        intro z
        apply Nat.testBit_lt_two_pow
        exact z.toNat_lt.trans_le (Nat.pow_le_pow_right (by omega) (by omega))
      rw [differs, hbound, hbound]
      rfl
    simp [changes, hnever]

end Counted

/-- **However the window of a channel slid, was reset and was switched between digital and
analogue**, the transitions of a bit in a range are the neighbours in it that differ in
the bit. -/
theorem bitTransitions_eq_count (steps : List (WindowStep Float)) (begin fin bit : ℕ)
    (counters : WaveQueryCounters) :
    let window := SampleWindow.run steps
    (window.index.bitTransitions window.samples window.offset begin fin bit counters).1 =
      changes (bitsOf (sampleAt window.samples window.offset)) bit
        (min begin window.samples.length + window.offset)
        (min fin window.samples.length + window.offset) :=
  (SampleWindow.run_synced steps).bitTransitions_eq (SampleWindow.run_counted steps) begin fin bit
    counters

end ProtoScope.Plot
