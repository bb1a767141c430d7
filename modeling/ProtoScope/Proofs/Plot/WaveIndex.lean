/-
The summary index answers what a scan would.

One level is right for a window when its blocks are the scans of all aligned ranges that
meet the window.  Synchronizing a level that was right for an earlier window makes it
right for the new one: the blocks that are kept lie inside both windows.  The levels are
followed upwards until one block covers the window; a level above that is new, and there
the first block and the tail are all there is.
-/
import ProtoScope.Proofs.Plot.WaveMerge

namespace ProtoScope.Plot

open WaveScalar
open ProtoScope.Library.BlockSummaries WaveSummaryIndex

variable {α : Type} [WaveScalar α]

/-! ### One level -/

omit [WaveScalar α] in
theorem popBefore_blocks (digital : Bool) (first : ℕ) :
    ∀ (blocks : List (WaveSummary α)) (firstBlock : ℕ) (transitions : Option (List BitCounts)),
      firstBlock ≤ first →
      (Level.popBefore digital first firstBlock blocks transitions).blocks =
          blocks.drop (first - firstBlock) ∧
        ((Level.popBefore digital first firstBlock blocks transitions).blocks ≠ [] →
          (Level.popBefore digital first firstBlock blocks transitions).firstBlock = first) := by
  intro blocks
  induction blocks with
  | nil =>
    intro firstBlock transitions _
    simp [Level.popBefore]
  | cons block blocks ih =>
    intro firstBlock transitions h
    unfold Level.popBefore
    split
    · rename_i hlt
      have hsub : first - firstBlock = (first - (firstBlock + 1)) + 1 := by omega
      rw [hsub, List.drop_succ_cons]
      exact ih (firstBlock + 1) _ (by omega)
    · have heq : firstBlock = first := by omega
      simp [heq]

theorem rebuild_fold {digital : Bool} {source : RebuildSource α} {first : ℕ} :
    ∀ (ids : List ℕ) (level : Level α),
      (ids.foldl (Level.rebuild digital source first) level).firstBlock = level.firstBlock ∧
      (ids.foldl (Level.rebuild digital source first) level).blocks =
        ids.foldl (fun items id => items.set (id - first) (source.summary id)) level.blocks := by
  intro ids
  induction ids with
  | nil =>
    intro level
    exact ⟨rfl, rfl⟩
  | cons id ids ih =>
    intro level
    exact ih (Level.rebuild digital source first level id)

/-- The blocks of a level after it followed the window, as one list. -/
theorem synchronize_level (digital : Bool) (oldEnd : ℕ) (source : RebuildSource α)
    (level : Level α) (h : level.firstBlock ≤ source.offset / source.width) :
    (level.synchronize digital oldEnd source).firstBlock = source.offset / source.width ∧
    (level.synchronize digital oldEnd source).blocks =
      refresh (source.offset / source.width) ((source.newEnd - 1) / source.width)
        (max (source.offset / source.width + 1) (oldEnd / source.width)) source.summary
        (Level.resized ((source.newEnd - 1) / source.width - source.offset / source.width + 1)
          WaveSummary.empty
          (level.blocks.drop (source.offset / source.width - level.firstBlock))) := by
  obtain ⟨hblocks, hfirst⟩ :=
    popBefore_blocks digital _ level.blocks level.firstBlock level.transitions h
  unfold Level.synchronize
  dsimp only
  rw [(rebuild_fold _ _).1, (rebuild_fold _ _).2]
  constructor
  · dsimp only [Level.rebuild]
    split
    · rfl
    · rename_i hne
      apply hfirst
      simpa using hne
  · unfold refresh
    dsimp only [Level.rebuild]
    rw [hblocks, Nat.sub_self]

/-- A level holds the scans of all blocks of the width that meet the window. -/
structure LevelExact (S : RangeSummary (WaveSummary α)) (lo hi width : ℕ) (level : Level α) :
    Prop where
  firstBlock : level.firstBlock = lo / width
  blocks : level.blocks = S.blocks lo hi width

section Level

variable {S : RangeSummary (WaveSummary α)} {lo hi width : ℕ}

omit [WaveScalar α] in
theorem LevelExact.block? {level : Level α} (h : LevelExact S lo hi width level) (hlt : lo < hi)
    (id : ℕ) :
    level.block? id =
      if lo / width ≤ id ∧ id ≤ (hi - 1) / width then some (S.block lo hi width id) else none := by
  have hle : lo / width ≤ (hi - 1) / width := Nat.div_le_div_right (by omega)
  unfold Level.block?
  rw [h.firstBlock, h.blocks]
  by_cases hfirst : lo / width ≤ id
  · rw [if_pos hfirst]
    by_cases hlast : id ≤ (hi - 1) / width
    · have hid : lo / width + (id - lo / width) = id := by omega
      rw [if_pos ⟨hfirst, hlast⟩, S.getElem?_blocks (by omega), hid]
    · rw [if_neg (by omega), List.getElem?_eq_none]
      rw [S.length_blocks]
      omega
  · rw [if_neg hfirst, if_neg (by omega)]

/-- A level without blocks, met above the old levels, is built from nothing. -/
theorem LevelExact.of_new {digital : Bool} {oldEnd : ℕ} {source : RebuildSource α}
    (hlo : source.offset = lo) (hhi : source.newEnd = hi) (hw : source.width = width)
    (hlt : lo < hi) (hold : oldEnd / width ≤ lo / width + 1)
    (hsource : ∀ id, source.summary id = S.block lo hi width id) :
    LevelExact S lo hi width (Level.synchronize digital oldEnd source {}) := by
  subst hlo hhi hw
  have hle : source.offset / source.width ≤ (source.newEnd - 1) / source.width :=
    Nat.div_le_div_right (by omega)
  obtain ⟨hfirst, hblocks⟩ :=
    synchronize_level digital oldEnd source {} (Nat.zero_le _)
  refine ⟨hfirst, hblocks.trans ?_⟩
  apply refresh_eq hle (by omega)
  · simp [Level.resized]
  · intro id _ _
    exact hsource id
  · intro i hi htail hlast
    omega

omit [WaveScalar α] in
/-- A block that is kept when the window moves lies inside the old window and the new one. -/
theorem kept_entry {β γ : Type} {S₀ S : RangeSummary β} {f : β → γ} {fill : γ} {n lo₀ hi₀ i : ℕ}
    (hwidth : 0 < width) (hlo₀ : lo₀ ≤ lo) (hhi₀ : hi₀ ≤ hi)
    (hsame : ∀ a b, lo ≤ a → b ≤ hi₀ → S₀.of a b = S.of a b) (hpos : 0 < i)
    (hold : lo / width + i < hi₀ / width) (hn : i < n) :
    (Level.resized n fill
      (((S₀.blocks lo₀ hi₀ width).map f).drop (lo / width - lo₀ / width)))[i]? =
      some (f (S.block lo hi width (lo / width + i))) := by
  have hle₀ : lo₀ / width ≤ lo / width := Nat.div_le_div_right hlo₀
  have hend : (lo / width + i + 1) * width ≤ hi₀ := by
    rw [← Nat.le_div_iff_mul_le hwidth]
    exact hold
  have hbegin : lo ≤ (lo / width + i) * width := by
    have := Nat.lt_div_mul_add hwidth (a := lo)
    have hmul : (lo / width + 1) * width ≤ (lo / width + i) * width :=
      Nat.mul_le_mul_right _ (by omega)
    rw [Nat.add_mul, Nat.one_mul] at hmul
    omega
  have hlast₀ : lo / width + i ≤ (hi₀ - 1) / width := by
    rw [Nat.le_div_iff_mul_le hwidth]
    rw [Nat.add_mul _ 1, Nat.one_mul] at hend
    omega
  have hid : lo₀ / width + (lo / width - lo₀ / width + i) = lo / width + i := by omega
  have hblock : S₀.block lo₀ hi₀ width (lo / width + i) = S.block lo hi width (lo / width + i) := by
    rw [S₀.block_of_inside (hlo₀.trans hbegin) hend, S.block_of_inside hbegin (hend.trans hhi₀),
      hsame _ _ hbegin hend]
  unfold Level.resized
  rw [List.getElem?_append_left, List.getElem?_take_of_lt hn, List.getElem?_drop,
    List.getElem?_map, S₀.getElem?_blocks (by omega), hid, hblock]
  · rfl
  · rw [List.length_take, List.length_drop, List.length_map, S₀.length_blocks]
    omega

/-- **A level follows the window.**  The blocks that stay lie inside the old window and
inside the new one. -/
theorem LevelExact.synchronize {S₀ : RangeSummary (WaveSummary α)} {lo₀ hi₀ : ℕ} {digital : Bool}
    {source : RebuildSource α} {level : Level α} (hexact : LevelExact S₀ lo₀ hi₀ width level)
    (hlo : source.offset = lo) (hhi : source.newEnd = hi) (hw : source.width = width)
    (hwidth : 0 < width) (hlt : lo < hi) (hlo₀ : lo₀ ≤ lo) (hhi₀ : hi₀ ≤ hi)
    (hsame : ∀ a b, lo ≤ a → b ≤ hi₀ → S₀.of a b = S.of a b)
    (hsource : ∀ id, source.summary id = S.block lo hi width id) :
    LevelExact S lo hi width (level.synchronize digital hi₀ source) := by
  subst hlo hhi hw
  have hle : source.offset / source.width ≤ (source.newEnd - 1) / source.width :=
    Nat.div_le_div_right (by omega)
  have hle₀ : lo₀ / source.width ≤ source.offset / source.width := Nat.div_le_div_right hlo₀
  obtain ⟨hfirst, hblocks⟩ :=
    synchronize_level digital hi₀ source level (by rw [hexact.firstBlock]; exact hle₀)
  refine ⟨hfirst, hblocks.trans ?_⟩
  apply refresh_eq hle (by omega)
  · simp [Level.resized]
    omega
  · intro id _ _
    exact hsource id
  · intro i hi htail hlast
    have hkept := @kept_entry _ _ _ _ _ S₀ S id WaveSummary.empty
      ((source.newEnd - 1) / source.width - source.offset / source.width + 1) _ _ _ hwidth hlo₀ hhi₀
      hsame hi (by omega) (by omega)
    rw [List.map_id] at hkept
    rw [hexact.firstBlock, hexact.blocks]
    exact hkept

end Level

/-! ### All levels -/

/-- The levels from the one of the given width upwards, each right, the last one with a
single block. -/
def LevelsExact (S : RangeSummary (WaveSummary α)) (lo hi : ℕ) : ℕ → List (Level α) → Prop
  | _, [] => False
  | width, level :: levels =>
    LevelExact S lo hi width level ∧
      if lo / width = (hi - 1) / width then levels = []
      else LevelsExact S lo hi (width * 2) levels

/-- What the levels of the old window are to the new one: right for the old window, or
none at all where one block covered what there was. -/
def Reusable (S₀ : RangeSummary (WaveSummary α)) (lo₀ hi₀ lo width : ℕ) (levels : List (Level α)) :
    Prop :=
  LevelsExact S₀ lo₀ hi₀ width levels ∨ (levels = [] ∧ hi₀ / width ≤ lo / width + 1)

section Levels

variable {S₀ : RangeSummary (WaveSummary α)} {lo₀ hi₀ lo width : ℕ}

omit [WaveScalar α] in
theorem Reusable.tail {levels : List (Level α)} (h : Reusable S₀ lo₀ hi₀ lo width levels)
    (hlo : lo₀ ≤ lo) : Reusable S₀ lo₀ hi₀ lo (width * 2) levels.tail := by
  have key : hi₀ / width ≤ lo / width + 1 → hi₀ / (width * 2) ≤ lo / (width * 2) + 1 := by
    intro hle
    rw [← Nat.div_div_eq_div_mul, ← Nat.div_div_eq_div_mul]
    omega
  rcases h with h | ⟨rfl, hle⟩
  · cases levels with
    | nil => exact h.elim
    | cons level levels =>
      obtain ⟨-, hrest⟩ := h
      rw [List.tail_cons]
      split at hrest
      · refine .inr ⟨hrest, key ?_⟩
        rename_i htop
        have hmono : lo₀ / width ≤ lo / width := Nat.div_le_div_right hlo
        have hsucc : hi₀ / width ≤ (hi₀ - 1) / width + 1 := by
          rcases Nat.eq_zero_or_pos width with rfl | hw
          · simp
          · rw [← Nat.add_div_right _ hw]
            exact Nat.div_le_div_right (by omega)
        omega
      · exact .inl hrest
  · exact .inr ⟨rfl, key hle⟩

end Levels

section Synchronize

variable [LawfulWaveScalar α] {lo hi : ℕ}

variable {samples : List (WaveSample α)} {sample : ℕ → WaveSample α}

/-- The lowest level scans the samples of a block. -/
theorem summary_base (offset newEnd width id : ℕ) :
    (RebuildSource.mk samples offset newEnd width none).summary id =
      (scanSummary (sampleAt samples offset)).block offset newEnd width id := rfl

/-- One turn of the loop over the two children of a block. -/
def mergeChild (child : Level α) (result : WaveSummary α) (id : ℕ) : WaveSummary α :=
  match child.block? id with
  | some summary => merge result summary
  | none => result

/-- A child that does not exist has no samples in the window. -/
theorem mergeChild_eq {width : ℕ} {child : Level α} (hwidth : 0 < width) (hlt : lo < hi)
    (hchild : LevelExact (scanSummary sample) lo hi width child) (a b id : ℕ) :
    mergeChild child (scanOf sample a b) id =
      merge (scanOf sample a b) ((scanSummary sample).block lo hi width id) := by
  unfold mergeChild
  rw [hchild.block? hlt]
  by_cases h : lo / width ≤ id ∧ id ≤ (hi - 1) / width
  · rw [if_pos h]
  · rw [if_neg h, RangeSummary.block_outside _ hwidth hlt h]
    exact ((scanSummary sample).merge_empty a b).symm

/-- A higher level merges the two halves a block has in the level below. -/
theorem summary_merge {width : ℕ} {child : Level α} (hwidth : 0 < width) (hlt : lo < hi)
    (hchild : LevelExact (scanSummary sample) lo hi width child) (id : ℕ) :
    (RebuildSource.mk samples lo hi (width * 2) (some child)).summary id =
      (scanSummary sample).block lo hi (width * 2) id := by
  have hleft : mergeChild child WaveSummary.empty (id * 2) =
      (scanSummary sample).block lo hi width (id * 2) := by
    have h := mergeChild_eq hwidth hlt hchild 0 0 (id * 2)
    rw [scanOf_empty sample (Nat.le_refl 0)] at h
    exact h.trans ((scanSummary sample).empty_merge _ _)
  rw [← RangeSummary.merge_halves]
  calc (RebuildSource.mk samples lo hi (width * 2) (some child)).summary id
      = mergeChild child (mergeChild child WaveSummary.empty (id * 2)) (id * 2 + 1) := rfl
    _ = _ := by
        rw [hleft]
        exact mergeChild_eq hwidth hlt hchild _ _ (id * 2 + 1)

/-- What the level being rebuilt reads gives the blocks of the new window. -/
def SourceExact (samples : List (WaveSample α)) (lo hi width : ℕ) (child : Option (Level α)) :
    Prop :=
  ∀ id, (RebuildSource.mk samples lo hi width child).summary id =
    (scanSummary (sampleAt samples lo)).block lo hi width id

theorem LevelExact.reusable (digital : Bool) {lo₀ hi₀ width : ℕ} {child : Option (Level α)}
    {levels : List (Level α)} (hwidth : 0 < width) (hlt : lo < hi) (hlo₀ : lo₀ ≤ lo)
    (hhi₀ : hi₀ ≤ hi) (hsame : ∀ i, lo ≤ i → i < hi₀ → sample i = sampleAt samples lo i)
    (hreuse : Reusable (scanSummary sample) lo₀ hi₀ lo width levels)
    (hsource : SourceExact samples lo hi width child) :
    LevelExact (scanSummary (sampleAt samples lo)) lo hi width
      ((levels.headD {}).synchronize digital hi₀ ⟨samples, lo, hi, width, child⟩) := by
  rcases hreuse with h | ⟨rfl, hle⟩
  · cases levels with
    | nil => exact h.elim
    | cons level levels =>
      apply h.1.synchronize rfl rfl rfl hwidth hlt hlo₀ hhi₀ _ hsource
      intro a b ha hb
      apply scanOf_congr
      intro i hi hlti
      exact hsame i (ha.trans hi) (by omega)
  · exact LevelExact.of_new rfl rfl rfl hlt hle hsource

/-- **All levels follow the window.**  Induction over the levels: each is rebuilt from the
one below, and the loop ends before its fuel does because a level wider than the window's
end has one block. -/
theorem synchronizeLevels_exact {digital : Bool} {lo₀ hi₀ : ℕ} (hlt : lo < hi) (hlo₀ : lo₀ ≤ lo)
    (hhi₀ : hi₀ ≤ hi) (hsame : ∀ i, lo ≤ i → i < hi₀ → sample i = sampleAt samples lo i) :
    ∀ (fuel width : ℕ) (child : Option (Level α)) (levels : List (Level α)),
      0 < width → 0 < fuel → hi < fuel + width →
      Reusable (scanSummary sample) lo₀ hi₀ lo width levels →
      SourceExact samples lo hi width child →
      LevelsExact (scanSummary (sampleAt samples lo)) lo hi width
        (synchronizeLevels digital samples lo hi hi₀ fuel width child levels) := by
  intro fuel
  induction fuel with
  | zero =>
    intro width child levels _ hfuel
    omega
  | succ fuel ih =>
    intro width child levels hwidth _ hfuel hreuse hsource
    have hlevel := LevelExact.reusable digital hwidth hlt hlo₀ hhi₀ hsame hreuse hsource
    unfold synchronizeLevels
    dsimp only
    by_cases htop : lo / width = (hi - 1) / width
    · rw [if_pos htop]
      exact ⟨hlevel, by rw [if_pos htop]⟩
    · rw [if_neg htop]
      refine ⟨hlevel, ?_⟩
      rw [if_neg htop]
      have hwide : width ≤ hi - 1 := by
        by_contra hc
        apply htop
        rw [Nat.div_eq_of_lt (by omega), Nat.div_eq_of_lt (by omega)]
      apply ih (width * 2) _ _ (by omega) (by omega) (by omega) (hreuse.tail hlo₀)
      intro id
      exact summary_merge hwidth hlt hlevel id

end Synchronize

/-! ### Queries -/

section Query

variable [LawfulWaveScalar α] {sample : ℕ → WaveSample α} {lo hi : ℕ}

/-- A block that a query takes is the scan of the samples from `begin` on. -/
def BlockOf (sample : ℕ → WaveSample α) (begin fin : ℕ) (chosen : ℕ × WaveSummary α) : Prop :=
  0 < chosen.1 ∧ begin + chosen.1 ≤ fin ∧ chosen.2 = scanOf sample begin (begin + chosen.1)

theorem selectBlock_spec {begin fin : ℕ} (hlt : lo < hi) (hlo : lo ≤ begin) (hhi : fin ≤ hi)
    (hbegin : begin < fin) :
    ∀ (levels : List (Level α)) (width : ℕ) (selected : Option (ℕ × WaveSummary α)),
      0 < width → (levels = [] ∨ LevelsExact (scanSummary sample) lo hi width levels) →
      (∀ chosen, selected = some chosen → BlockOf sample begin fin chosen) →
      ∀ chosen, selectBlock begin fin width levels selected = some chosen →
        BlockOf sample begin fin chosen := by
  intro levels
  induction levels with
  | nil =>
    intro width selected _ _ hselected chosen hchosen
    exact hselected chosen hchosen
  | cons level levels ih =>
    intro width selected hwidth hlevels hselected chosen hchosen
    obtain ⟨hlevel, hrest⟩ : LevelsExact (scanSummary sample) lo hi width (level :: levels) := by
      rcases hlevels with h | h
      · cases h
      · exact h
    unfold selectBlock at hchosen
    split at hchosen
    · exact hselected chosen hchosen
    · rename_i hfits
      have haligned : begin / width * width = begin := Nat.div_mul_cancel
        (Nat.dvd_of_mod_eq_zero (by omega))
      refine ih (width * 2) _ (by omega) ?_ ?_ chosen hchosen
      · split at hrest
        · exact .inl hrest
        · exact .inr hrest
      · intro chosen' hchosen'
        rw [hlevel.block? hlt] at hchosen'
        split at hchosen'
        · rename_i summary hsummary
          split at hchosen'
          · split at hsummary
            · cases hchosen'
              cases hsummary
              refine ⟨hwidth, by omega, ?_⟩
              have hnext : (begin / width + 1) * width = begin + width := by
                rw [Nat.add_mul, haligned, Nat.one_mul]
              rw [RangeSummary.block_of_inside _ (by omega) (by omega), haligned, hnext]
              rfl
            · cases hsummary
          · exact hselected chosen' hchosen'
        · exact hselected chosen' hchosen'

/-- **The walk of a query** extends the scan of what it has passed, block by block. -/
theorem queryLoop_eq {samples : List (WaveSample α)} {levels : List (Level α)} {begin₀ fin : ℕ}
    (hlevels : levels = [] ∨ LevelsExact (scanSummary (sampleAt samples lo)) lo hi blockSize levels)
    (hlt : lo < hi) (hhi : fin ≤ hi) :
    ∀ (fuel begin : ℕ) (counters : WaveQueryCounters), lo ≤ begin → begin₀ ≤ begin →
      begin ≤ fin → fin - begin ≤ fuel →
      (queryLoop levels samples lo fin fuel begin
        (scanOf (sampleAt samples lo) begin₀ begin) counters).1 =
        scanOf (sampleAt samples lo) begin₀ fin := by
  intro fuel
  induction fuel with
  | zero =>
    intro begin counters _ _ hle hfuel
    have heq : begin = fin := by omega
    rw [heq]
    rfl
  | succ fuel ih =>
    intro begin counters hlo hbegin hle hfuel
    unfold queryLoop
    by_cases h : begin < fin
    · rw [if_pos h]
      split
      · rename_i width summary hselect
        obtain ⟨hwidth, hfits, hscan⟩ := selectBlock_spec hlt hlo hhi h levels blockSize none
          (by decide) hlevels (by simp) _ hselect
        dsimp only at hwidth hfits hscan
        rw [hscan, merge_scanOf _ hbegin (by omega)]
        exact ih _ _ (by omega) (by omega) hfits (by omega)
      · have hnext : begin < (begin / blockSize + 1) * blockSize := by
          have := Nat.lt_div_mul_add (by decide : 0 < blockSize) (a := begin)
          rw [Nat.add_mul]
          omega
        dsimp only
        rw [scan_eq, merge_scanOf _ hbegin (by omega)]
        exact ih _ _ (by omega) (by omega) (by omega) (by omega)
    · have heq : begin = fin := by omega
      rw [if_neg h, heq]

end Query

/-! ### The index over a run -/

/-- The index either holds nothing or is right, level by level, for the window. -/
def Synced (index : WaveSummaryIndex α) (samples : List (WaveSample α)) (offset : ℕ)
    [LawfulWaveScalar α] : Prop :=
  (index.levels_ = [] ∧ index.begin_ = 0 ∧ index.end_ = 0) ∨
    (samples ≠ [] ∧ index.begin_ = offset ∧ index.end_ = offset + samples.length ∧
      LevelsExact (scanSummary (sampleAt samples offset)) offset (offset + samples.length) blockSize
        index.levels_)

section Synced

variable [LawfulWaveScalar α] {index : WaveSummaryIndex α} {samples : List (WaveSample α)}
  {offset : ℕ}

theorem clear_synced (index : WaveSummaryIndex α) (samples : List (WaveSample α)) (offset : ℕ) :
    Synced index.clear samples offset := .inl ⟨rfl, rfl, rfl⟩

theorem Synced.digital (h : Synced index samples offset) (digital : Bool) :
    Synced { (if index.digital_ = digital then index else index.clear) with digital_ := digital }
      samples offset := by
  split
  · exact h
  · exact clear_synced index samples offset

theorem Synced.reusable (h : Synced index samples offset) (lo : ℕ) :
    Reusable (scanSummary (sampleAt samples offset)) index.begin_ index.end_ lo blockSize
      index.levels_ := by
  rcases h with ⟨hlevels, -, hend⟩ | ⟨-, hbegin, hend, hexact⟩
  · exact .inr ⟨hlevels, by rw [hend, Nat.zero_div]; exact Nat.zero_le _⟩
  · rw [hbegin, hend]
    exact .inl hexact

theorem Synced.follow {samples' : List (WaveSample α)} {offset' : ℕ}
    (h : Synced index samples offset)
    (hsame : ∀ i, offset ≤ i → offset' ≤ i → i < offset + samples.length →
      sampleAt samples offset i = sampleAt samples' offset' i) :
    Synced (index.follow samples' offset') samples' offset' := by
  unfold WaveSummaryIndex.follow
  cases hempty : samples'.isEmpty
  · have hne : samples' ≠ [] := by
      simpa using hempty
    have hpos : 0 < samples'.length := List.length_pos_iff.mpr hne
    rw [if_neg Bool.false_ne_true]
    refine .inr ⟨hne, rfl, rfl, ?_⟩
    dsimp only
    by_cases hclear : offset' < index.begin_ ∨ offset' + samples'.length < index.end_ ∨
        index.end_ ≤ offset'
    · rw [if_pos hclear]
      have hreuse := (clear_synced index samples offset).reusable offset'
      apply synchronizeLevels_exact (by omega) (Nat.zero_le _) (Nat.zero_le _) _ _ blockSize _ _
        (by decide) (by omega) (by simp only [blockSize]; omega) hreuse (summary_base offset' _ _)
      intro i _ hi
      exact absurd hi (Nat.not_lt_zero i)
    · rw [if_neg hclear]
      have hreuse := h.reusable offset'
      apply synchronizeLevels_exact (by omega) (by omega) (by omega) _ _ blockSize _ _
        (by decide) (by omega) (by simp only [blockSize]; omega) hreuse (summary_base offset' _ _)
      intro i hi hlt
      rcases h with ⟨-, -, hend⟩ | ⟨-, hbegin, hend, -⟩
      · omega
      · exact hsame i (by omega) hi (by omega)
  · rw [if_pos rfl]
    exact clear_synced _ _ _

/-- **One call keeps the index right**, whatever the new window is, as long as it shows the
same samples where it meets the old one. -/
theorem Synced.synchronize {samples' : List (WaveSample α)} {offset' : ℕ}
    (h : Synced index samples offset) (digital : Bool)
    (hsame : ∀ i, offset ≤ i → offset' ≤ i → i < offset + samples.length →
      sampleAt samples offset i = sampleAt samples' offset' i) :
    Synced (index.synchronize samples' offset' digital) samples' offset' :=
  (h.digital digital).follow hsame

/-- **A query on an index that is right is a scan.** -/
theorem Synced.query_eq (h : Synced index samples offset) (begin fin : ℕ)
    (counters : WaveQueryCounters) :
    (index.query samples offset begin fin counters).1 =
      scan samples offset (min begin samples.length + offset) (min fin samples.length + offset) := by
  unfold query
  dsimp only
  by_cases hle : min begin samples.length ≤ min fin samples.length
  · rcases Nat.eq_zero_or_pos samples.length with hzero | hpos
    · rw [hzero, Nat.min_zero, Nat.min_zero, Nat.sub_self]
      exact (scanOf_empty _ (Nat.le_refl _)).symm
    · have hlevels : index.levels_ = [] ∨
          LevelsExact (scanSummary (sampleAt samples offset)) offset (offset + samples.length)
            blockSize index.levels_ := by
        rcases h with h | h
        · exact .inl h.1
        · exact .inr h.2.2.2
      rw [← scanOf_empty (sampleAt samples offset) (Nat.le_refl (min begin samples.length + offset))]
      exact queryLoop_eq hlevels (by omega) (by omega) _ _ counters (by omega) (Nat.le_refl _)
        (by omega) (Nat.le_refl _)
  · rw [Nat.sub_eq_zero_of_le (by omega)]
    exact (scanOf_empty _ (by omega)).symm

end Synced

/-! ### Sliding windows -/

/-- What happens to the samples of a channel. -/
inductive WindowStep (α : Type) where
  /-- The oldest samples are dropped, new ones appended, and the index is synchronized. -/
  | slide (dropped : ℕ) (appended : List (WaveSample α)) (digital : Bool)
  /-- The history is cleared together with the index; counting resumes at `offset`. -/
  | reset (offset : ℕ)

/-- The samples a channel retains, the global index of the first, and the index over them. -/
structure SampleWindow (α : Type) where
  samples : List (WaveSample α) := []
  offset : ℕ := 0
  index : WaveSummaryIndex α := {}

def SampleWindow.step (window : SampleWindow α) : WindowStep α → SampleWindow α
  | .slide dropped appended digital =>
    let samples := window.samples.drop dropped ++ appended
    let offset := window.offset + min dropped window.samples.length
    ⟨samples, offset, window.index.synchronize samples offset digital⟩
  | .reset offset => ⟨[], offset, window.index.clear⟩

def SampleWindow.run (steps : List (WindowStep α)) : SampleWindow α :=
  steps.foldl SampleWindow.step {}

/-- A sample that is not dropped keeps its global index. -/
theorem sampleAt_slide {samples appended : List (WaveSample α)} {offset dropped i : ℕ}
    (h : offset + min dropped samples.length ≤ i) (hi : i < offset + samples.length) :
    sampleAt samples offset i =
      sampleAt (samples.drop dropped ++ appended) (offset + min dropped samples.length) i := by
  unfold sampleAt
  rw [List.getD_eq_getElem?_getD, List.getD_eq_getElem?_getD, List.getElem?_append_left,
    List.getElem?_drop]
  · congr 2
    omega
  · rw [List.length_drop]
    omega

theorem SampleWindow.step_synced [LawfulWaveScalar α] {window : SampleWindow α}
    (h : Synced window.index window.samples window.offset) (step : WindowStep α) :
    Synced (window.step step).index (window.step step).samples (window.step step).offset := by
  cases step with
  | slide dropped appended digital =>
    apply h.synchronize digital
    intro i _ hoffset hi
    exact sampleAt_slide hoffset hi
  | reset offset => exact clear_synced _ _ _

theorem SampleWindow.run_synced [LawfulWaveScalar α] (steps : List (WindowStep α)) :
    Synced (run steps).index (run steps).samples (run steps).offset := by
  have key : ∀ window : SampleWindow α, Synced window.index window.samples window.offset →
      Synced (steps.foldl step window).index (steps.foldl step window).samples
        (steps.foldl step window).offset := by
    induction steps with
    | nil =>
      intro window h
      exact h
    | cons step steps ih =>
      intro window h
      exact ih _ (step_synced h step)
  exact key {} (.inl ⟨rfl, rfl, rfl⟩)

/-- **However the window of a channel slid and was reset, a query on its summary index is
the scan of the samples the window holds**, in every field of the summary. -/
theorem query_eq_scan (steps : List (WindowStep Float)) (begin fin : ℕ)
    (counters : WaveQueryCounters) :
    let window := SampleWindow.run steps
    (window.index.query window.samples window.offset begin fin counters).1 =
      scan window.samples window.offset (min begin window.samples.length + window.offset)
        (min fin window.samples.length + window.offset) :=
  (SampleWindow.run_synced steps).query_eq begin fin counters

end ProtoScope.Plot
