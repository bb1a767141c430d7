/-
Snapping to a bit with a source and without one.

Both searches keep the best of the candidates they are offered.  The scan is offered every
sample inside both distances; the search with a source is offered, of the samples at which the
bit changes, the nearest to each state on either side of the cursor, and of the others those
next to the cursor alone.  So the two agree wherever the bit changes inside both distances, and
otherwise exactly where the samples next to the cursor are the ones that count.
-/
import ProtoScope.Plot.BitSnap
import ProtoScope.Proofs.Plot.DisplayAgreement
import ProtoScope.Proofs.Plot.PrunedSearch

namespace ProtoScope.Plot

open ProtoScope.Library
open WaveScalar WaveArith BestSnaps WaveQueryView

/-! ### The best candidate -/

namespace BestSnaps

/-- Candidates with different scores are further apart than the tolerance. -/
def Apart (offered : BitSnapCandidate ℚ → Prop) : Prop :=
  ∀ c c', offered c → offered c' → c = c' ∨ kMathEpsilon < |c.score - c'.score|

/-- What is kept of the candidates that were offered. -/
structure Kept (offered : BitSnapCandidate ℚ → Prop) (best : Option (BitSnapCandidate ℚ)) :
    Prop where
  member : ∀ c ∈ best, offered c
  found : (∃ c, offered c) → best.isSome = true
  least : Apart offered → ∀ c ∈ best, ∀ c', offered c' → c.score ≤ c'.score

/-- Further apart than the tolerance, the better of two candidates has the smaller score. -/
theorem better_iff_of_apart {c c' : BitSnapCandidate ℚ}
    (h : kMathEpsilon < |c.score - c'.score|) :
    bitSnapCandidateBetter c c' = true ↔ c.score < c'.score := by
  have heps := kMathEpsilon_pos
  unfold bitSnapCandidateBetter
  simp only [lt_rat, sub_rat, fabs_rat, decide_eq_true_eq]
  rcases lt_abs.mp h with hgreater | hless
  · rw [if_neg (by linarith), if_pos h]
    exact ⟨fun hfalse => (by cases hfalse), fun hlt => by linarith⟩
  · rw [if_pos (by linarith)]
    exact ⟨fun _ => by linarith, fun _ => rfl⟩

theorem Kept.step {offered : BitSnapCandidate ℚ → Prop} {best : Option (BitSnapCandidate ℚ)}
    (h : Kept offered best) (c : BitSnapCandidate ℚ) :
    Kept (fun c' => offered c' ∨ c' = c) (keepBetter best c) := by
  cases best with
  | none =>
    have hnone : ∀ c', ¬ offered c' := fun c' hc' => (by
      have := h.found ⟨c', hc'⟩
      cases this)
    refine ⟨fun c' hc' => Or.inr (Option.mem_some_iff.mp hc').symm, fun _ => rfl,
      fun _ c' hc' c'' hc'' => ?_⟩
    obtain rfl := Option.mem_some_iff.mp hc'
    rcases hc'' with hold | rfl
    · exact absurd hold (hnone c'')
    · exact le_refl _
  | some current =>
    have hcurrent := h.member current rfl
    unfold keepBetter
    dsimp only
    split
    · rename_i hbetter
      refine ⟨fun c' hc' => Or.inr (Option.mem_some_iff.mp hc').symm, fun _ => rfl,
        fun hapart c' hc' c'' hc'' => ?_⟩
      obtain rfl := Option.mem_some_iff.mp hc'
      rcases hc'' with hold | rfl
      · have hleast := h.least (fun a b ha hb => hapart a b (Or.inl ha) (Or.inl hb)) current rfl
          c'' hold
        rcases hapart c current (Or.inr rfl) (Or.inl hcurrent) with rfl | hfar
        · exact hleast
        · exact (((better_iff_of_apart hfar).mp hbetter).le).trans hleast
      · exact le_refl _
    · rename_i hbetter
      refine ⟨fun c' hc' => Or.inl (h.member c' hc'), fun _ => rfl,
        fun hapart c' hc' c'' hc'' => ?_⟩
      rcases hc'' with hold | rfl
      · exact h.least (fun a b ha hb => hapart a b (Or.inl ha) (Or.inl hb)) c' hc' c'' hold
      · obtain rfl := Option.mem_some_iff.mp hc'
        rcases hapart c'' current (Or.inr rfl) (Or.inl hcurrent) with rfl | hfar
        · exact le_refl _
        · exact not_lt.mp fun hlt => hbetter ((better_iff_of_apart hfar).mpr hlt)

theorem Kept.isSome_iff {offered : BitSnapCandidate ℚ → Prop} {best : Option (BitSnapCandidate ℚ)}
    (h : Kept offered best) : best.isSome = true ↔ ∃ c, offered c := by
  refine ⟨fun hsome => ?_, h.found⟩
  obtain ⟨c, hc⟩ := Option.isSome_iff_exists.mp hsome
  exact ⟨c, h.member c hc⟩

/-- A search that is offered for every candidate of another one that is no worse, and nothing
else, keeps the same. -/
theorem Kept.agree {offered offered' : BitSnapCandidate ℚ → Prop}
    {best best' : Option (BitSnapCandidate ℚ)} (h : Kept offered best) (h' : Kept offered' best')
    (hoffered : ∀ c, offered' c → offered c)
    (hcover : ∀ c, offered c → ∃ c', offered' c' ∧ c'.score ≤ c.score) :
    best.isSome = best'.isSome ∧ (Apart offered → best = best') := by
  have hsome : best.isSome = best'.isSome := by
    rw [Bool.eq_iff_iff, h.isSome_iff, h'.isSome_iff]
    constructor
    · rintro ⟨c, hc⟩
      obtain ⟨c', hc', -⟩ := hcover c hc
      exact ⟨c', hc'⟩
    · rintro ⟨c, hc⟩
      exact ⟨c, hoffered c hc⟩
  refine ⟨hsome, fun hapart => ?_⟩
  cases best with
  | none =>
    cases best' with
    | none => rfl
    | some c' => cases hsome
  | some c =>
    cases best' with
    | none => cases hsome
    | some c' =>
      have hc := h.member c rfl
      have hc' := hoffered c' (h'.member c' rfl)
      obtain ⟨other, hother, hle⟩ := hcover c hc
      have hless : c'.score ≤ other.score :=
        h'.least (fun a b ha hb => hapart a b (hoffered a ha) (hoffered b hb)) c' rfl other hother
      have hequal : c.score = c'.score :=
        le_antisymm (h.least hapart c rfl c' hc') (hless.trans hle)
      rcases hapart c c' hc hc' with rfl | hfar
      · rfl
      · rw [hequal, sub_self, abs_zero] at hfar
        exact absurd hfar (not_lt.mpr kMathEpsilon_pos.le)

/-- The candidates kept of those offered, each with whether the bit changes. -/
structure Held (offers : List (Bool × BitSnapCandidate ℚ)) (best : BestSnaps ℚ) : Prop where
  edge : Kept (fun c => (true, c) ∈ offers) best.edge
  stable : Kept (fun c => (false, c) ∈ offers) best.stable

/-- The candidates are considered one after the other. -/
def considerAll (best : BestSnaps ℚ) (offers : List (Bool × BitSnapCandidate ℚ)) : BestSnaps ℚ :=
  offers.foldl (fun best offer => best.consider offer.1 offer.2) best

theorem Held.step {offers : List (Bool × BitSnapCandidate ℚ)} {best : BestSnaps ℚ}
    (h : Held offers best) (transition : Bool) (c : BitSnapCandidate ℚ) :
    Held (offers ++ [(transition, c)]) (best.consider transition c) := by
  have hsame : ∀ flag c', flag = transition →
      ((flag, c') ∈ offers ++ [(transition, c)] ↔ (flag, c') ∈ offers ∨ c' = c) := by
    rintro flag c' rfl
    simp
  have hother : ∀ flag c', flag ≠ transition →
      ((flag, c') ∈ offers ++ [(transition, c)] ↔ (flag, c') ∈ offers) := by
    intro flag c' hne
    simp [hne]
  unfold consider
  cases transition with
  | true =>
    refine ⟨?_, ?_⟩
    · simp only [hsame true _ rfl]
      exact h.edge.step c
    · simp only [hother false _ Bool.false_ne_true]
      exact h.stable
  | false =>
    refine ⟨?_, ?_⟩
    · simp only [hother true _ (Ne.symm Bool.false_ne_true)]
      exact h.edge
    · simp only [hsame false _ rfl]
      exact h.stable.step c

/-- **A search keeps the best of what it is offered.** -/
theorem held_considerAll (offers : List (Bool × BitSnapCandidate ℚ)) :
    Held offers (considerAll {} offers) := by
  have hgeneral : ∀ (offers seen : List (Bool × BitSnapCandidate ℚ)) (best : BestSnaps ℚ),
      Held seen best → Held (seen ++ offers) (considerAll best offers) := by
    intro offers
    induction offers with
    | nil =>
      intro seen best h
      rw [List.append_nil]
      exact h
    | cons offer offers ih =>
      intro seen best h
      rw [List.append_cons]
      exact ih _ _ (h.step offer.1 offer.2)
  have hstart : Held [] ({} : BestSnaps ℚ) :=
    ⟨⟨by simp, by simp, by simp⟩, by simp, by simp, by simp⟩
  exact hgeneral offers [] {} hstart

theorem readout_isSome (best : BestSnaps ℚ) :
    best.readout.isSome = (best.edge.isSome || best.stable.isSome) := by
  unfold readout
  cases best.edge with
  | none => exact Option.isSome_map
  | some c => rfl

/-- An edge is read out exactly where one was offered. -/
theorem Held.readout_edge {offers : List (Bool × BitSnapCandidate ℚ)} {best : BestSnaps ℚ}
    (h : Held offers best) (hflag : ∀ flag c, (flag, c) ∈ offers → c.readout.bit.edge = flag) :
    ∀ r ∈ best.readout, r.bit.edge = best.edge.isSome := by
  intro r hr
  unfold readout at hr
  cases hedge : best.edge with
  | none =>
    rw [hedge] at hr
    obtain ⟨c, hc, rfl⟩ := Option.map_eq_some_iff.mp hr
    exact hflag false c (h.stable.member c hc)
  | some c =>
    rw [hedge] at hr
    obtain rfl := Option.some.inj hr
    exact hflag true c (h.edge.member c hedge)

/-- Lane after lane, the candidates of all lanes are considered. -/
theorem foldl_considerAll {β : Type} {step : BestSnaps ℚ → β → BestSnaps ℚ}
    {offers : β → List (Bool × BitSnapCandidate ℚ)}
    (hstep : ∀ best x, step best x = considerAll best (offers x)) (xs : List β)
    (best : BestSnaps ℚ) :
    xs.foldl step best = considerAll best (xs.flatMap offers) := by
  induction xs generalizing best with
  | nil => rfl
  | cons x xs ih =>
    rw [List.foldl_cons, hstep, ih, List.flatMap_cons]
    unfold considerAll
    rw [List.foldl_append]

end BestSnaps

/-! ### Bits and edges -/

theorem rawBitsFromSampleValue_eq (value : ℚ) :
    rawBitsFromSampleValue value = waveRawBits value := by
  have hzero : ∀ x : ℚ, le x zero = decide (x ≤ 0) := fun x => rfl
  have hmax : ∀ x : ℚ, le uint64Max x = decide ((2 : ℚ) ^ 64 ≤ x) := fun x => rfl
  have hword : ∀ x : ℚ, toUInt64 x = UInt64.ofNat ⌊x⌋₊ := fun x => rfl
  unfold rawBitsFromSampleValue waveRawBits
  rw [isFinite_rat, Bool.not_true, Bool.false_or, if_neg Bool.false_ne_true]
  simp only [hzero, hmax, hword, decide_eq_true_eq]
  rcases lt_or_ge value 0 with hnegative | hpositive
  · have htrunc : trunc value = -(⌊-value⌋ : ℚ) := by
      unfold trunc
      rw [if_pos (show lt value zero = true from decide_eq_true hnegative)]
      rfl
    have hfloor : (0 : ℚ) ≤ (⌊-value⌋ : ℚ) := by
      exact_mod_cast Int.floor_nonneg.mpr (by linarith)
    rw [if_pos (by rw [htrunc]; linarith), if_pos hnegative.le]
  have htrunc : trunc value = (⌊value⌋ : ℚ) := by
    unfold trunc
    rw [if_neg (show ¬ lt value zero = true by simpa using hpositive)]
    rfl
  have hle := Int.floor_le value
  rw [htrunc]
  by_cases hsmall : (⌊value⌋ : ℚ) ≤ 0
  · rw [if_pos hsmall]
    by_cases hvalue : value ≤ 0
    · rw [if_pos hvalue]
    · have hlt : value < 1 := by
        have := Int.lt_floor_add_one value
        linarith
      rw [if_neg hvalue, if_neg (by linarith), (Nat.floor_eq_zero).mpr hlt]
      rfl
  · have hvalue : ¬ value ≤ 0 := fun hle' => hsmall (hle.trans hle')
    rw [if_neg hsmall, if_neg hvalue]
    have hfloor : (2 : ℚ) ^ 64 ≤ (⌊value⌋ : ℚ) ↔ (2 : ℚ) ^ 64 ≤ value := by
      have hcast : ((2 ^ 64 : ℤ) : ℚ) = (2 : ℚ) ^ 64 := by norm_num
      rw [← hcast, Int.cast_le, Int.le_floor]
    by_cases hlarge : (2 : ℚ) ^ 64 ≤ value
    · rw [if_pos hlarge, if_pos (hfloor.mpr hlarge)]
    · rw [if_neg hlarge, if_neg fun h => hlarge (hfloor.mp h)]
      rw [← Int.floor_toNat, Int.floor_intCast, Int.floor_toNat]

theorem rawBitEnabled_eq (value : ℚ) (bit : ℕ) :
    rawBitEnabled value bit = (waveRawBits value).toNat.testBit bit := by
  unfold rawBitEnabled
  rw [rawBitsFromSampleValue_eq]
  by_cases hhigh : kMaxBitDisplayCount.toNat ≤ bit
  · rw [if_pos hhigh]
    refine (Nat.testBit_lt_two_pow ?_).symm
    exact (UInt64.toNat_lt _).trans_le (Nat.pow_le_pow_right (by decide) hhigh)
  · rw [if_neg hhigh]
    have hbit : bit < 64 := Nat.not_le.mp hhigh
    have hshift : (UInt64.ofNat bit).toNat % 64 = bit := by
      rw [UInt64.toNat_ofNat_of_lt' (hbit.trans (by decide)), Nat.mod_eq_of_lt hbit]
    rw [Nat.testBit, Bool.eq_iff_iff, decide_eq_true_eq, bne_iff_ne, ne_eq, ne_eq,
      ← UInt64.toNat_inj, UInt64.toNat_and, UInt64.toNat_shiftRight, hshift, Nat.and_comm]
    rfl

/-- The first of a list that fits comes before every other that fits. -/
theorem findSome_first {r : ℕ → ℕ → Prop} {p : ℕ → Prop} [DecidablePred p] {l : List ℕ}
    (hsorted : l.Pairwise r) {i : ℕ} (hi : i ∈ l) (hp : p i) :
    ∃ j ∈ l, p j ∧ (l.findSome? fun k => if p k then some k else none) = some j ∧
      (j = i ∨ r j i) := by
  induction l with
  | nil => cases hi
  | cons k l ih =>
    obtain ⟨hfirst, hrest⟩ := List.pairwise_cons.mp hsorted
    rw [List.findSome?_cons]
    by_cases hk : p k
    · rw [if_pos hk]
      refine ⟨k, List.mem_cons_self, hk, rfl, ?_⟩
      rcases List.mem_cons.mp hi with rfl | hmem
      · exact Or.inl rfl
      · exact Or.inr (hfirst i hmem)
    · rw [if_neg hk]
      rcases List.mem_cons.mp hi with rfl | hmem
      · exact absurd hp hk
      · obtain ⟨j, hj, hpj, hfound, hbefore⟩ := ih hrest hmem
        exact ⟨j, List.mem_cons_of_mem _ hj, hpj, hfound, hbefore⟩

namespace WaveQueryView

variable {view : WaveQueryView ℚ} {bit i j : ℕ} {minTime maxTime : ℚ} {state reverse : Bool}

/-- The bit changes to a state at a sample of the window. -/
def EdgeTo (view : WaveQueryView ℚ) (minTime maxTime : ℚ) (bit : ℕ) (state : Bool) (i : ℕ) : Prop :=
  min minTime maxTime ≤ view.time i ∧ view.time i ≤ max minTime maxTime ∧
    view.bitAt bit i = state ∧ view.bitAt bit (i - 1) ≠ state

instance : DecidablePred (view.EdgeTo minTime maxTime bit state) := fun _ =>
  inferInstanceAs (Decidable (_ ∧ _ ∧ _ ∧ _))

theorem mem_positions_iff :
    i ∈ HalvingSearch.positions reverse 1 view.size ↔ 1 ≤ i ∧ i < view.size := by
  unfold HalvingSearch.positions
  split
  · rw [List.mem_reverse, List.mem_range'_1]
    omega
  · rw [List.mem_range'_1]
    omega

/-- What is found is an edge of the window. -/
theorem bitEdge_some (hsync : view.channel.Synced) (htimes : view.TimesAscend)
    (h : view.bitEdge minTime maxTime bit state reverse = some j) :
    (1 ≤ j ∧ j < view.size) ∧ view.EdgeTo minTime maxTime bit state j := by
  rw [bitEdge_eq hsync htimes] at h
  obtain ⟨k, hk, hedge⟩ := List.exists_of_findSome?_eq_some h
  have hmem : k ∈ HalvingSearch.positions reverse 1 view.size := hk
  unfold edgeAt at hedge
  split at hedge
  · rename_i hto
    obtain rfl := Option.some.inj hedge
    exact ⟨mem_positions_iff.mp hmem, hto⟩
  · cases hedge

/-- **Where the window has an edge the last one is found, or the first one.** -/
theorem bitEdge_found (minTime maxTime : ℚ) (reverse : Bool) (hsync : view.channel.Synced)
    (htimes : view.TimesAscend) (hi : 1 ≤ i) (hlt : i < view.size) (h : view.EdgeTo minTime maxTime bit state i) :
    ∃ j, view.bitEdge minTime maxTime bit state reverse = some j ∧
      if reverse then i ≤ j else j ≤ i := by
  have hscan : view.bitEdge minTime maxTime bit state reverse =
      (HalvingSearch.positions reverse 1 view.size).findSome?
        fun k => if view.EdgeTo minTime maxTime bit state k then some k else none :=
    bitEdge_eq hsync htimes bit state reverse
  have hsorted : (HalvingSearch.positions reverse 1 view.size).Pairwise
      fun a b => if reverse then b < a else a < b := by
    unfold HalvingSearch.positions
    cases reverse with
    | true =>
      rw [if_pos rfl]
      simp only [if_true]
      exact List.pairwise_reverse.mpr List.pairwise_lt_range'
    | false =>
      rw [if_neg Bool.false_ne_true]
      simp only [Bool.false_eq_true, if_false]
      exact List.pairwise_lt_range'
  obtain ⟨j, -, -, hfound, hbefore⟩ :=
    findSome_first hsorted (mem_positions_iff.mpr ⟨hi, hlt⟩) h
  refine ⟨j, hscan.trans hfound, ?_⟩
  cases reverse with
  | true =>
    simp only [if_true] at hbefore ⊢
    omega
  | false =>
    simp only [Bool.false_eq_true, if_false] at hbefore ⊢
    omega

end WaveQueryView

/-! ### What the searches are offered -/

structure SnapQuery where
  time : ℚ
  plotY : ℚ
  maxTimeDistance : ℚ
  maxValueDistance : ℚ

namespace SnapQuery

variable {view : WaveQueryView ℚ} {lane : BitLaneLayoutEntry ℚ} {query : SnapQuery} {i : ℕ}

/-- The sample, drawn in the lane, is inside both distances. -/
def Inside (query : SnapQuery) (view : WaveQueryView ℚ) (lane : BitLaneLayoutEntry ℚ) (i : ℕ) :
    Prop :=
  i < view.size ∧ |view.time i - query.time| ≤ query.maxTimeDistance ∧
    |lane.y (view.bitAt lane.bitIndex i) - query.plotY| ≤ query.maxValueDistance

/-- The bit of the lane changes at the sample. -/
def Changes (view : WaveQueryView ℚ) (lane : BitLaneLayoutEntry ℚ) (i : ℕ) : Prop :=
  0 < i ∧ view.bitAt lane.bitIndex i ≠ view.bitAt lane.bitIndex (i - 1)

instance : DecidablePred (query.Inside view lane) := fun _ =>
  inferInstanceAs (Decidable (_ ∧ _ ∧ _))

instance : DecidablePred (Changes view lane) := fun _ => inferInstanceAs (Decidable (_ ∧ _))

def candidateAt (query : SnapQuery) (view : WaveQueryView ℚ) (lane : BitLaneLayoutEntry ℚ)
    (edge : Bool) (i : ℕ) : BitSnapCandidate ℚ :=
  bitSnapCandidate lane query.time query.plotY (view.time i) i (view.bitAt lane.bitIndex i) edge

/-- How far a sample is from the cursor. -/
def score (query : SnapQuery) (view : WaveQueryView ℚ) (lane : BitLaneLayoutEntry ℚ) (i : ℕ) : ℚ :=
  |view.time i - query.time| * |view.time i - query.time| +
    |lane.y (view.bitAt lane.bitIndex i) - query.plotY| *
      |lane.y (view.bitAt lane.bitIndex i) - query.plotY|

theorem candidateAt_score (edge : Bool) :
    (query.candidateAt view lane edge i).score = query.score view lane i := by
  unfold candidateAt bitSnapCandidate score
  simp only [fabs_rat, sub_rat, add_rat]
  rfl

/-- A sample inside both distances is offered. -/
def offer (query : SnapQuery) (view : WaveQueryView ℚ) (lane : BitLaneLayoutEntry ℚ) (edge : Bool)
    (i : ℕ) : Option (Bool × BitSnapCandidate ℚ) :=
  if query.Inside view lane i then some (edge, query.candidateAt view lane edge i) else none

/-- The scan is offered every sample. -/
def scanOffers (query : SnapQuery) (view : WaveQueryView ℚ) (lane : BitLaneLayoutEntry ℚ) :
    List (Bool × BitSnapCandidate ℚ) :=
  (List.range view.size).filterMap fun i => query.offer view lane (decide (Changes view lane i)) i

/-- The edges to a state on either side of the cursor. -/
def edgesTo (query : SnapQuery) (view : WaveQueryView ℚ) (lane : BitLaneLayoutEntry ℚ)
    (state : Bool) : List ℕ :=
  (view.bitEdge (query.time - query.maxTimeDistance) query.time lane.bitIndex state true).toList ++
    (view.bitEdge query.time (query.time + query.maxTimeDistance) lane.bitIndex state false).toList

/-- The samples next to the cursor. -/
def nextTo (query : SnapQuery) (view : WaveQueryView ℚ) : List ℕ :=
  let range := view.range query.time query.time true
  List.range' range.1 (range.2 - range.1)

/-- The search with a source is offered the edges to both states and the samples next to the
cursor. -/
def sourceOffers (query : SnapQuery) (view : WaveQueryView ℚ) (lane : BitLaneLayoutEntry ℚ) :
    List (Bool × BitSnapCandidate ℚ) :=
  (query.edgesTo view lane false ++ query.edgesTo view lane true).filterMap
      (query.offer view lane true) ++
    (query.nextTo view).filterMap (query.offer view lane false)

theorem considerAll_append (best : BestSnaps ℚ) (first second : List (Bool × BitSnapCandidate ℚ)) :
    considerAll best (first ++ second) =
      considerAll (considerAll best first) second :=
  List.foldl_append ..

theorem acceptSnap_eq (hi : i < view.size) (best : BestSnaps ℚ) {state : Bool}
    (hstate : view.bitAt lane.bitIndex i = state) (edge : Bool) :
    acceptSnap view lane query.time query.plotY query.maxTimeDistance query.maxValueDistance best i
        state edge =
      considerAll best (query.offer view lane edge i).toList := by
  subst hstate
  unfold acceptSnap offer
  simp only [lt_rat, fabs_rat, sub_rat]
  by_cases hinside : query.Inside view lane i
  · have hnear := hinside.2
    rw [if_neg (by simp [hnear]), if_pos hinside]
    rfl
  · rw [if_neg hinside, if_pos]
    · rfl
    · by_contra hnear
      simp only [Bool.or_eq_true, decide_eq_true_eq, not_or, not_lt] at hnear
      exact hinside ⟨hi, hnear.1, hnear.2⟩

theorem filterMap_toList {β γ : Type} (f : β → Option γ) (x : Option β) :
    x.toList.filterMap f = (x.bind f).toList := by
  cases x with
  | none => rfl
  | some x =>
    rw [Option.toList_some, List.filterMap_cons, List.filterMap_nil, Option.bind_some]
    cases f x with
    | none => rfl
    | some y => rfl

theorem indexedEdges_eq (hsync : view.channel.Synced) (htimes : view.TimesAscend)
    (best : BestSnaps ℚ) (state : Bool) :
    indexedEdges view lane query.time query.plotY query.maxTimeDistance query.maxValueDistance best
        state =
      considerAll best
        ((query.edgesTo view lane state).filterMap (query.offer view lane true)) := by
  have haccept : ∀ (best : BestSnaps ℚ) (minTime maxTime : ℚ) (reverse : Bool),
      acceptEdge view lane query.time query.plotY query.maxTimeDistance query.maxValueDistance best
          state (view.bitEdge minTime maxTime lane.bitIndex state reverse) =
      considerAll best
        ((view.bitEdge minTime maxTime lane.bitIndex state reverse).toList.filterMap
          (query.offer view lane true)) := by
    intro best minTime maxTime reverse
    rw [filterMap_toList]
    cases hedge : view.bitEdge minTime maxTime lane.bitIndex state reverse with
    | none => rfl
    | some j =>
      obtain ⟨⟨-, hj⟩, -, -, hstate, -⟩ := bitEdge_some hsync htimes hedge
      exact acceptSnap_eq hj best hstate true
  unfold indexedEdges edgesTo
  rw [List.filterMap_append, considerAll_append]
  by_cases hfar : lt query.maxValueDistance (fabs (sub (lane.y state) query.plotY)) = true
  · have hnone : ∀ minTime maxTime reverse,
        (view.bitEdge minTime maxTime lane.bitIndex state reverse).toList.filterMap
          (query.offer view lane true) = [] := by
      intro minTime maxTime reverse
      rw [filterMap_toList]
      cases hedge : view.bitEdge minTime maxTime lane.bitIndex state reverse with
      | none => rfl
      | some j =>
        obtain ⟨-, -, -, hstate, -⟩ := bitEdge_some hsync htimes hedge
        rw [Option.bind_some]
        unfold offer
        rw [if_neg]
        · rfl
        · rintro ⟨-, -, hvalue⟩
          rw [hstate] at hvalue
          rw [lt_rat, fabs_rat, sub_rat, decide_eq_true_eq] at hfar
          exact absurd hvalue (not_le.mpr hfar)
    rw [if_pos hfar, hnone, hnone]
    rfl
  · rw [if_neg hfar]
    dsimp only
    rw [haccept, haccept]
    rfl

/-- **A lane with a source is offered its nearest edges and the samples next to the cursor.** -/
theorem indexedLane_eq {displayData : WaveDisplayData ℚ} {displayed : WaveDisplayChannel ℚ}
    {source : SnapshotChannel ℚ}
    (hdisplayed : displayData.channels[lane.parentChannelIndex]? = some displayed)
    (hsource : displayed.source = some source) (hquery : displayed.query source = view)
    (hsync : view.channel.Synced) (htimes : view.TimesAscend) (best : BestSnaps ℚ) :
    indexedLane displayData query.time query.plotY query.maxTimeDistance query.maxValueDistance best
        lane =
      considerAll best (query.sourceOffers view lane) := by
  unfold indexedLane
  rw [hdisplayed]
  dsimp only
  rw [hsource]
  dsimp only
  rw [hquery]
  have hbit : ∀ i, rawBitEnabled (source.samples.getD i default).value lane.bitIndex =
      view.bitAt lane.bitIndex i := by
    intro i
    rw [rawBitEnabled_eq, ← hquery]
    rfl
  unfold sourceOffers
  rw [List.filterMap_append, considerAll_append, considerAll_append,
    ← indexedEdges_eq hsync htimes, ← indexedEdges_eq hsync htimes]
  simp only [List.foldl_cons, List.foldl_nil, hbit]
  generalize indexedEdges view lane query.time query.plotY query.maxTimeDistance
    query.maxValueDistance _ true = best
  have hsize := view.range_le_size query.time query.time true
  unfold nextTo
  dsimp only
  have hpositions : ∀ i ∈ List.range' (view.range query.time query.time true).1
      ((view.range query.time query.time true).2 - (view.range query.time query.time true).1),
      i < view.size := by
    intro i hi
    rw [List.mem_range'_1] at hi
    omega
  generalize List.range' _ _ = positions at hpositions ⊢
  induction positions generalizing best with
  | nil => rfl
  | cons i positions ih =>
    rw [List.foldl_cons, acceptSnap_eq (hpositions i List.mem_cons_self) best rfl false,
      ih _ fun k hk => hpositions k (List.mem_cons_of_mem _ hk)]
    have hcons : (i :: positions).filterMap (query.offer view lane false) =
        (query.offer view lane false i).toList ++
          positions.filterMap (query.offer view lane false) := by
      rw [List.filterMap_cons]
      cases query.offer view lane false i with
      | none => rfl
      | some offered => rfl
    rw [hcons, considerAll_append]

/-- Beyond the reach of a lane no sample of it is inside. -/
theorem not_inside_of_outOfReach
    (hout : laneOutOfReach lane query.plotY query.maxValueDistance = true) (i : ℕ) :
    ¬ query.Inside view lane i := by
  rintro ⟨-, -, hvalue⟩
  obtain ⟨hbelow, habove⟩ := abs_le.mp hvalue
  have hlow : lane.y (view.bitAt lane.bitIndex i) = lane.lowY ∨
      lane.y (view.bitAt lane.bitIndex i) = lane.highY := by
    unfold BitLaneLayoutEntry.y
    cases view.bitAt lane.bitIndex i with
    | false => exact Or.inl rfl
    | true => exact Or.inr rfl
  unfold laneOutOfReach at hout
  simp only [lt_rat, sub_rat, add_rat, decide_eq_true_eq, Bool.or_eq_true] at hout
  rcases hout with hout | hout
  · split at hout
    · rcases hlow with h | h <;> rw [h] at hbelow habove <;> linarith
    · rcases hlow with h | h <;> rw [h] at hbelow habove <;> linarith
  · split at hout
    · rcases hlow with h | h <;> rw [h] at hbelow habove <;> linarith
    · rcases hlow with h | h <;> rw [h] at hbelow habove <;> linarith

theorem scanOffers_range_succ (n : ℕ) :
    ((List.range (n + 1)).filterMap fun i =>
        query.offer view lane (decide (Changes view lane i)) i) =
      ((List.range n).filterMap fun i =>
        query.offer view lane (decide (Changes view lane i)) i) ++
        (query.offer view lane (decide (Changes view lane n)) n).toList := by
  rw [List.range_succ, List.filterMap_append]
  congr 1

/-- The loop over the displayed samples carries the state of the sample before. -/
theorem scanSample_foldl {channel : SnapshotChannel ℚ} {displayed : WaveDisplayChannel ℚ}
    (hchannel : view.channel = channel.toChannelView)
    (htime : ∀ i < view.size, (displayed.samples.getD i default).time = view.time i)
    (best : BestSnaps ℚ) :
    ∀ n ≤ view.size,
      (List.range n).foldl
        (scanSample channel displayed lane query.time query.plotY query.maxTimeDistance
          query.maxValueDistance 0)
        (view.bitAt lane.bitIndex 0, best) =
      (view.bitAt lane.bitIndex (n - 1),
        considerAll best ((List.range n).filterMap fun i =>
          query.offer view lane (decide (Changes view lane i)) i)) := by
  intro n
  induction n with
  | zero => exact fun _ => rfl
  | succ n ih =>
    intro hn
    have hbit : rawBitEnabled (channel.samples.getD n default).value lane.bitIndex =
        view.bitAt lane.bitIndex n := by
      rw [rawBitEnabled_eq, ← hchannel]
      rfl
    have htransition : (decide (0 < n) &&
        view.bitAt lane.bitIndex n != view.bitAt lane.bitIndex (n - 1)) =
        decide (Changes view lane n) := by
      rw [Bool.eq_iff_iff, Bool.and_eq_true, decide_eq_true_eq, decide_eq_true_eq, bne_iff_ne]
      rfl
    rw [scanOffers_range_succ, considerAll_append, List.range_succ, List.foldl_append,
      ih (Nat.le_of_succ_le hn), List.foldl_cons, List.foldl_nil]
    unfold scanSample
    dsimp only
    rw [Nat.zero_add, hbit, htransition, htime n hn, isFinite_rat]
    simp only [le_rat, fabs_rat, sub_rat, Bool.not_true, Bool.false_eq_true, if_false]
    refine Prod.ext rfl ?_
    dsimp only
    unfold offer
    by_cases hinside : query.Inside view lane n
    · rw [if_pos hinside, if_pos]
      · rfl
      · simp [hinside.2]
    · rw [if_neg hinside, if_neg]
      · rfl
      · intro hnear
        rw [Bool.and_eq_true, decide_eq_true_eq, decide_eq_true_eq] at hnear
        exact hinside ⟨hn, hnear⟩

/-- **A lane without a source is offered every sample of its channel.** -/
theorem scanLane_eq {snapshot : WaveSnapshot ℚ} {displayData : WaveDisplayData ℚ}
    {channel : SnapshotChannel ℚ}
    (hchannel : snapshot.channels[lane.parentChannelIndex]? = some channel)
    (hbegin : channel.visibleBegin = 0) (hend : channel.visibleEnd = channel.samples.length)
    (hview : view.channel = channel.toChannelView)
    (hdisplayed : displayData.channels[lane.parentChannelIndex]? =
      some (view.sampleWindow channel.visibleBegin channel.visibleEnd))
    (best : BestSnaps ℚ) :
    scanLane snapshot displayData query.time query.plotY query.maxTimeDistance
        query.maxValueDistance best lane =
      considerAll best (query.scanOffers view lane) := by
  have hsize : view.size = channel.samples.length := congrArg (fun c => c.samples.length) hview
  unfold scanLane
  by_cases hout : laneOutOfReach lane query.plotY query.maxValueDistance = true
  · have hnone : query.scanOffers view lane = [] := by
      unfold scanOffers
      rw [List.filterMap_eq_nil_iff]
      intro i _
      exact if_neg (not_inside_of_outOfReach hout i)
    rw [if_pos hout, hnone]
    rfl
  rw [if_neg hout, hchannel, hdisplayed]
  dsimp only
  rw [hbegin, hend, Nat.min_self, Nat.zero_min, Nat.sub_zero, sampleWindow_length, Nat.sub_zero,
    Nat.min_self]
  by_cases hempty : channel.samples.length = 0
  · have hsamples : channel.samples.isEmpty = true :=
      List.isEmpty_iff.mpr (List.length_eq_zero_iff.mp hempty)
    rw [hsamples, Bool.true_or, if_pos rfl]
    unfold scanOffers
    rw [hsize, hempty]
    rfl
  · have hsamples : channel.samples.isEmpty = false := by
      rw [Bool.eq_false_iff, ne_eq, List.isEmpty_iff, ← List.length_eq_zero_iff]
      exact hempty
    have hwindow : (view.sampleWindow 0 channel.samples.length).samples.isEmpty = false := by
      rw [Bool.eq_false_iff, ne_eq, List.isEmpty_iff, ← List.length_eq_zero_iff,
        sampleWindow_length]
      exact hempty
    have hbit : rawBitEnabled (channel.samples.getD 0 default).value lane.bitIndex =
        view.bitAt lane.bitIndex 0 := by
      rw [rawBitEnabled_eq, ← hview]
      rfl
    have htime : ∀ i < view.size, ((view.sampleWindow 0 channel.samples.length).samples.getD i
        default).time = view.time i := by
      intro i hi
      rw [sampleWindow_getD (by omega), Nat.zero_add]
      rfl
    rw [hsamples, hwindow, Bool.false_or, if_neg Bool.false_ne_true, if_neg (by omega), hbit,
      scanSample_foldl hview htime best _ (by omega), ← hsize]
    rfl

/-! ### Both searches -/

variable {snapshot : WaveSnapshot ℚ} {sampleFrequencyHz : ℚ} {lanes : List (BitLaneLayoutEntry ℚ)}

/-- All of the history of the channel is visible, its times increase, and it is the history of
the samples that were appended, with their summary index or without one. -/
structure WholeHistory (channel : SnapshotChannel ℚ) : Prop where
  begin_eq : channel.visibleBegin = 0
  end_eq : channel.visibleEnd = channel.samples.length
  times : channel.samples.Pairwise fun a b => a.time < b.time
  recorded : ∃ steps indexed, channel.toChannelView =
    (SampleWindow.run steps).channel indexed channel.ratio channel.scale channel.offset

theorem WholeHistory.synced {channel : SnapshotChannel ℚ} (h : WholeHistory channel) :
    channel.toChannelView.Synced := by
  obtain ⟨steps, indexed, hchannel⟩ := h.recorded
  rw [hchannel]
  exact SampleWindow.channel_synced steps indexed _ _ _

/-- The view on the channel of a lane. -/
def laneView (snapshot : WaveSnapshot ℚ) (sampleFrequencyHz : ℚ) (lane : BitLaneLayoutEntry ℚ) :
    Option (WaveQueryView ℚ) :=
  snapshot.channels[lane.parentChannelIndex]?.map (snapshot.view sampleFrequencyHz)

/-- What all lanes offer. -/
def allOffers (snapshot : WaveSnapshot ℚ) (sampleFrequencyHz : ℚ)
    (offers : WaveQueryView ℚ → BitLaneLayoutEntry ℚ → List (Bool × BitSnapCandidate ℚ))
    (lanes : List (BitLaneLayoutEntry ℚ)) : List (Bool × BitSnapCandidate ℚ) :=
  lanes.flatMap fun lane =>
    ((laneView snapshot sampleFrequencyHz lane).map fun view => offers view lane).getD []

theorem laneView_some {lane : BitLaneLayoutEntry ℚ} {view : WaveQueryView ℚ}
    (h : laneView snapshot sampleFrequencyHz lane = some view) :
    ∃ channel ∈ snapshot.channels,
      snapshot.channels[lane.parentChannelIndex]? = some channel ∧
        snapshot.view sampleFrequencyHz channel = view := by
  obtain ⟨channel, hchannel, hview⟩ := Option.map_eq_some_iff.mp h
  exact ⟨channel, List.mem_of_getElem? hchannel, hchannel, hview⟩

/-- Neither search is offered anything where a distance is negative. -/
theorem not_inside_of_negative {lane : BitLaneLayoutEntry ℚ} {view : WaveQueryView ℚ}
    (h : query.maxTimeDistance < 0 ∨ query.maxValueDistance < 0) (i : ℕ) :
    ¬ query.Inside view lane i := by
  rintro ⟨-, htime, hvalue⟩
  rcases h with h | h
  · exact absurd (abs_nonneg _) (not_le.mpr (htime.trans_lt h))
  · exact absurd (abs_nonneg _) (not_le.mpr (hvalue.trans_lt h))

/-- The result of a search that is offered these candidates. -/
def search (query : SnapQuery) (offers : List (Bool × BitSnapCandidate ℚ)) :
    Option (BitReadout ℚ) :=
  if query.maxTimeDistance < 0 ∨ query.maxValueDistance < 0 then none
  else (considerAll {} offers).readout

theorem plain_search (hwhole : ∀ channel ∈ snapshot.channels, WholeHistory channel) :
    findNearestBitTransition snapshot (buildDisplayDataInto snapshot sampleFrequencyHz) lanes
        query.time query.plotY query.maxTimeDistance query.maxValueDistance =
      query.search (allOffers snapshot sampleFrequencyHz query.scanOffers lanes) := by
  have hsource : ((buildDisplayDataInto snapshot sampleFrequencyHz).channels.any
      fun channel => channel.source.isSome) = false := by
    rw [List.any_eq_false]
    intro displayed hdisplayed
    obtain ⟨k, hk⟩ := List.mem_iff_getElem?.mp hdisplayed
    have hsome := hk
    unfold buildDisplayDataInto at hsome
    rw [List.getElem?_map] at hsome
    obtain ⟨channel, hchannel, -⟩ := Option.map_eq_some_iff.mp hsome
    rw [WaveSnapshot.plain_channel hchannel] at hk
    rw [← Option.some.inj hk]
    exact Bool.false_ne_true
  unfold findNearestBitTransition search
  simp only [isFinite_rat, Bool.not_true, Bool.false_or, lt_rat, zero_rat, Bool.or_eq_true,
    decide_eq_true_eq]
  by_cases hnegative : query.maxTimeDistance < 0 ∨ query.maxValueDistance < 0
  · rw [if_pos hnegative, if_pos hnegative]
  rw [if_neg hnegative, if_neg hnegative, if_neg (by rw [hsource]; exact Bool.false_ne_true)]
  unfold allOffers
  refine congrArg readout (foldl_considerAll (fun best lane => ?_) lanes {})
  unfold laneView
  cases hchannel : snapshot.channels[lane.parentChannelIndex]? with
  | none =>
    unfold scanLane
    rw [hchannel]
    split
    · rfl
    · rfl
  | some channel =>
    have h := hwhole channel (List.mem_of_getElem? hchannel)
    exact scanLane_eq hchannel h.begin_eq h.end_eq rfl (WaveSnapshot.plain_channel hchannel) best

theorem source_search (hwhole : ∀ channel ∈ snapshot.channels, WholeHistory channel)
    (pointBudget : ℕ) (timeRange : Option (ℚ × ℚ)) (mode : WaveDownsampleMode) :
    findNearestBitTransition snapshot
        (buildQueryDisplayDataInto snapshot sampleFrequencyHz pointBudget timeRange mode) lanes
        query.time query.plotY query.maxTimeDistance query.maxValueDistance =
      query.search (allOffers snapshot sampleFrequencyHz query.sourceOffers lanes) := by
  unfold findNearestBitTransition search
  simp only [isFinite_rat, Bool.not_true, Bool.false_or, lt_rat, zero_rat, Bool.or_eq_true,
    decide_eq_true_eq]
  by_cases hnegative : query.maxTimeDistance < 0 ∨ query.maxValueDistance < 0
  · rw [if_pos hnegative, if_pos hnegative]
  rw [if_neg hnegative, if_neg hnegative]
  unfold allOffers laneView
  split
  · refine congrArg readout (foldl_considerAll (fun best lane => ?_) lanes {})
    cases hchannel : snapshot.channels[lane.parentChannelIndex]? with
    | none =>
      have hnone : (buildQueryDisplayDataInto snapshot sampleFrequencyHz pointBudget timeRange
          mode).channels[lane.parentChannelIndex]? = none := by
        unfold buildQueryDisplayDataInto
        rw [List.getElem?_map, hchannel]
        rfl
      unfold indexedLane
      rw [hnone]
      rfl
    | some channel =>
      have h := hwhole channel (List.mem_of_getElem? hchannel)
      obtain ⟨displayed, hdisplayed, hsource, hview⟩ :=
        WaveSnapshot.source_channel hchannel pointBudget timeRange mode
      exact indexedLane_eq hdisplayed hsource hview h.synced
        (WaveSnapshot.times_increase h.times).ascend best
  · -- no channel at all: the scan passes over every lane
    rename_i hnosource
    refine congrArg readout (foldl_considerAll (fun best lane => ?_) lanes {})
    cases hchannel : snapshot.channels[lane.parentChannelIndex]? with
    | none =>
      unfold scanLane
      rw [hchannel]
      split
      · rfl
      · rfl
    | some channel =>
      obtain ⟨displayed, hdisplayed, hsource, -⟩ :=
        @WaveSnapshot.source_channel snapshot sampleFrequencyHz _ _ hchannel pointBudget timeRange
          mode
      refine absurd (List.any_eq_true.mpr ⟨displayed, List.mem_of_getElem? hdisplayed, ?_⟩) hnosource
      rw [hsource]
      rfl

/-! ### The candidates inside both distances -/

/-- A sample of a lane that is inside both distances. -/
structure Candidate (query : SnapQuery) (snapshot : WaveSnapshot ℚ) (sampleFrequencyHz : ℚ)
    (lanes : List (BitLaneLayoutEntry ℚ)) (lane : BitLaneLayoutEntry ℚ) (view : WaveQueryView ℚ)
    (i : ℕ) : Prop where
  lane_mem : lane ∈ lanes
  view_eq : laneView snapshot sampleFrequencyHz lane = some view
  inside : query.Inside view lane i

/-- The scores of different candidates are further apart than the tolerance. -/
def Separated (query : SnapQuery) (snapshot : WaveSnapshot ℚ) (sampleFrequencyHz : ℚ)
    (lanes : List (BitLaneLayoutEntry ℚ)) : Prop :=
  ∀ lane view i lane' view' i', query.Candidate snapshot sampleFrequencyHz lanes lane view i →
    query.Candidate snapshot sampleFrequencyHz lanes lane' view' i' →
      (lane = lane' ∧ i = i') ∨
        kMathEpsilon < |query.score view lane i - query.score view' lane' i'|

section Candidates

variable {c : BitSnapCandidate ℚ} {edge : Bool}

theorem mem_allOffers
    {offers : WaveQueryView ℚ → BitLaneLayoutEntry ℚ → List (Bool × BitSnapCandidate ℚ)}
    {offered : Bool × BitSnapCandidate ℚ} :
    offered ∈ allOffers snapshot sampleFrequencyHz offers lanes ↔
      ∃ lane view, lane ∈ lanes ∧ laneView snapshot sampleFrequencyHz lane = some view ∧
        offered ∈ offers view lane := by
  unfold allOffers
  rw [List.mem_flatMap]
  constructor
  · rintro ⟨lane, hlane, hoffered⟩
    cases hview : laneView snapshot sampleFrequencyHz lane with
    | none =>
      rw [hview] at hoffered
      cases hoffered
    | some view =>
      rw [hview] at hoffered
      exact ⟨lane, view, hlane, hview, hoffered⟩
  · rintro ⟨lane, view, hlane, hview, hoffered⟩
    refine ⟨lane, hlane, ?_⟩
    rw [hview]
    exact hoffered

theorem offer_eq_some {view : WaveQueryView ℚ} {lane : BitLaneLayoutEntry ℚ} {flag : Bool} {i : ℕ} :
    query.offer view lane flag i = some (edge, c) ↔
      query.Inside view lane i ∧ flag = edge ∧ c = query.candidateAt view lane edge i := by
  unfold offer
  by_cases hinside : query.Inside view lane i
  · rw [if_pos hinside, Option.some.injEq, Prod.mk.injEq]
    constructor
    · rintro ⟨rfl, rfl⟩
      exact ⟨hinside, rfl, rfl⟩
    · rintro ⟨-, rfl, rfl⟩
      exact ⟨rfl, rfl⟩
  · rw [if_neg hinside]
    exact ⟨fun h => (by cases h), fun h => absurd h.1 hinside⟩

/-- The scan is offered every candidate. -/
theorem mem_scan :
    (edge, c) ∈ allOffers snapshot sampleFrequencyHz query.scanOffers lanes ↔
      ∃ lane view i, query.Candidate snapshot sampleFrequencyHz lanes lane view i ∧
        (edge = true ↔ Changes view lane i) ∧ c = query.candidateAt view lane edge i := by
  rw [mem_allOffers]
  constructor
  · rintro ⟨lane, view, hlane, hview, hoffered⟩
    obtain ⟨i, -, hoffer⟩ := List.mem_filterMap.mp hoffered
    obtain ⟨hinside, hflag, hc⟩ := offer_eq_some.mp hoffer
    refine ⟨lane, view, i, ⟨hlane, hview, hinside⟩, ?_, hc⟩
    rw [← hflag, decide_eq_true_eq]
  · rintro ⟨lane, view, i, h, hflag, hc⟩
    refine ⟨lane, view, h.lane_mem, h.view_eq, List.mem_filterMap.mpr ⟨i, ?_, ?_⟩⟩
    · exact List.mem_range.mpr h.inside.1
    · refine offer_eq_some.mpr ⟨h.inside, ?_, hc⟩
      rw [Bool.eq_iff_iff, decide_eq_true_eq]
      exact hflag.symm

/-- With a source the samples next to the cursor are offered. -/
theorem mem_source_stable :
    (false, c) ∈ allOffers snapshot sampleFrequencyHz query.sourceOffers lanes ↔
      ∃ lane view i, query.Candidate snapshot sampleFrequencyHz lanes lane view i ∧
        i ∈ query.nextTo view ∧ c = query.candidateAt view lane false i := by
  rw [mem_allOffers]
  constructor
  · rintro ⟨lane, view, hlane, hview, hoffered⟩
    rcases List.mem_append.mp hoffered with hedge | hnext
    · obtain ⟨i, -, hoffer⟩ := List.mem_filterMap.mp hedge
      exact absurd (offer_eq_some.mp hoffer).2.1 Bool.false_ne_true.symm
    · obtain ⟨i, hi, hoffer⟩ := List.mem_filterMap.mp hnext
      obtain ⟨hinside, -, hc⟩ := offer_eq_some.mp hoffer
      exact ⟨lane, view, i, ⟨hlane, hview, hinside⟩, hi, hc⟩
  · rintro ⟨lane, view, i, h, hi, hc⟩
    refine ⟨lane, view, h.lane_mem, h.view_eq, List.mem_append.mpr (Or.inr ?_)⟩
    exact List.mem_filterMap.mpr ⟨i, hi, offer_eq_some.mpr ⟨h.inside, rfl, hc⟩⟩

theorem laneView_facts (hwhole : ∀ channel ∈ snapshot.channels, WholeHistory channel)
    {lane : BitLaneLayoutEntry ℚ} {view : WaveQueryView ℚ}
    (hview : laneView snapshot sampleFrequencyHz lane = some view) :
    view.channel.Synced ∧ view.TimesIncrease := by
  obtain ⟨channel, hmem, -, rfl⟩ := laneView_some hview
  exact ⟨(hwhole channel hmem).synced, WaveSnapshot.times_increase (hwhole channel hmem).times⟩

/-- With a source an edge that is offered is a candidate at which the bit changes. -/
theorem source_edge (hwhole : ∀ channel ∈ snapshot.channels, WholeHistory channel)
    (hoffered : (true, c) ∈ allOffers snapshot sampleFrequencyHz query.sourceOffers lanes) :
    ∃ lane view i, query.Candidate snapshot sampleFrequencyHz lanes lane view i ∧
      Changes view lane i ∧ c = query.candidateAt view lane true i := by
  obtain ⟨lane, view, hlane, hview, hoffered⟩ := mem_allOffers.mp hoffered
  obtain ⟨hsync, htimes⟩ := laneView_facts hwhole hview
  rcases List.mem_append.mp hoffered with hedge | hnext
  · obtain ⟨i, hi, hoffer⟩ := List.mem_filterMap.mp hedge
    obtain ⟨hinside, -, hc⟩ := offer_eq_some.mp hoffer
    refine ⟨lane, view, i, ⟨hlane, hview, hinside⟩, ?_, hc⟩
    have hchanges : ∀ {minTime maxTime : ℚ} {state reverse : Bool},
        i ∈ (view.bitEdge minTime maxTime lane.bitIndex state reverse).toList →
          Changes view lane i := by
      intro minTime maxTime state reverse hfound
      obtain ⟨⟨hone, -⟩, -, -, hstate, hbefore⟩ :=
        bitEdge_some hsync htimes.ascend (Option.mem_toList.mp hfound)
      exact ⟨hone, fun hsame => hbefore (hsame.symm.trans hstate)⟩
    unfold edgesTo at hi
    simp only [List.mem_append] at hi
    rcases hi with (hi | hi) | (hi | hi)
    all_goals exact hchanges hi
  · obtain ⟨i, -, hoffer⟩ := List.mem_filterMap.mp hnext
    exact absurd (offer_eq_some.mp hoffer).2.1 Bool.false_ne_true

/-- A sample of the same state that is nearer to the cursor in time is no worse. -/
theorem inside_of_nearer {lane : BitLaneLayoutEntry ℚ} {view : WaveQueryView ℚ} {i j : ℕ}
    (hinside : query.Inside view lane i) (hj : j < view.size)
    (hstate : view.bitAt lane.bitIndex j = view.bitAt lane.bitIndex i)
    (hnear : |view.time j - query.time| ≤ |view.time i - query.time|) :
    query.Inside view lane j ∧ query.score view lane j ≤ query.score view lane i := by
  obtain ⟨-, htime, hvalue⟩ := hinside
  refine ⟨⟨hj, hnear.trans htime, ?_⟩, ?_⟩
  · rw [hstate]
    exact hvalue
  · unfold score
    rw [hstate]
    have hsquare := mul_self_le_mul_self (abs_nonneg (view.time j - query.time)) hnear
    linarith

/-- **For every candidate at which the bit changes one that is no worse is offered with a
source.** -/
theorem source_no_worse (hwhole : ∀ channel ∈ snapshot.channels, WholeHistory channel)
    {lane : BitLaneLayoutEntry ℚ} {view : WaveQueryView ℚ} {i : ℕ}
    (h : query.Candidate snapshot sampleFrequencyHz lanes lane view i)
    (hchanges : Changes view lane i) :
    ∃ j, query.Candidate snapshot sampleFrequencyHz lanes lane view j ∧
      (true, query.candidateAt view lane true j) ∈
        allOffers snapshot sampleFrequencyHz query.sourceOffers lanes ∧
      query.score view lane j ≤ query.score view lane i := by
  obtain ⟨hsync, htimes⟩ := laneView_facts hwhole h.view_eq
  obtain ⟨hlt, htime, hvalue⟩ := h.inside
  obtain ⟨hbelow, habove⟩ := abs_le.mp htime
  have hoffered : ∀ {j : ℕ}, j ∈ query.edgesTo view lane (view.bitAt lane.bitIndex i) →
      query.Inside view lane j →
        (true, query.candidateAt view lane true j) ∈
          allOffers snapshot sampleFrequencyHz query.sourceOffers lanes := by
    intro j hj hinside
    refine mem_allOffers.mpr ⟨lane, view, h.lane_mem, h.view_eq, List.mem_append.mpr (Or.inl ?_)⟩
    refine List.mem_filterMap.mpr ⟨j, ?_, offer_eq_some.mpr ⟨hinside, rfl, rfl⟩⟩
    rw [List.mem_append]
    cases hstate : view.bitAt lane.bitIndex i with
    | false =>
      rw [hstate] at hj
      exact Or.inl hj
    | true =>
      rw [hstate] at hj
      exact Or.inr hj
  rcases le_or_gt (view.time i) query.time with hbefore | hafter
  · -- the last edge to the state up to the cursor
    obtain ⟨j, hfound, hij⟩ := bitEdge_found
      (query.time - query.maxTimeDistance) query.time true hsync htimes.ascend hchanges.1 hlt
      (show view.EdgeTo _ _ lane.bitIndex (view.bitAt lane.bitIndex i) i from
        ⟨min_le_left _ _ |>.trans (by linarith), hbefore.trans (le_max_right _ _), rfl,
          hchanges.2.symm⟩)
    obtain ⟨⟨-, hj⟩, -, hupto, hstate, -⟩ :=
      bitEdge_some hsync htimes.ascend hfound
    rw [if_pos rfl] at hij
    have hle : view.time j ≤ query.time :=
      hupto.trans (max_le (by linarith) (le_refl _))
    have hnear : |view.time j - query.time| ≤ |view.time i - query.time| := by
      have := htimes.le_of_le hij hj
      rw [abs_of_nonpos (by linarith), abs_of_nonpos (by linarith)]
      linarith
    obtain ⟨hinside, hscore⟩ := inside_of_nearer h.inside hj hstate hnear
    refine ⟨j, ⟨h.lane_mem, h.view_eq, hinside⟩, hoffered ?_ hinside, hscore⟩
    exact List.mem_append.mpr (Or.inl (Option.mem_toList.mpr hfound))
  · -- the first edge to the state from the cursor on
    obtain ⟨j, hfound, hij⟩ := bitEdge_found
      query.time (query.time + query.maxTimeDistance) false hsync htimes.ascend hchanges.1 hlt
      (show view.EdgeTo _ _ lane.bitIndex (view.bitAt lane.bitIndex i) i from
        ⟨(min_le_left _ _).trans hafter.le, le_trans (by linarith) (le_max_right _ _), rfl,
          hchanges.2.symm⟩)
    obtain ⟨⟨-, hj⟩, hfrom, -, hstate, -⟩ :=
      bitEdge_some hsync htimes.ascend hfound
    rw [if_neg Bool.false_ne_true] at hij
    have hge : query.time ≤ view.time j :=
      (le_min (le_refl _) (by linarith)).trans hfrom
    have hnear : |view.time j - query.time| ≤ |view.time i - query.time| := by
      have := htimes.le_of_le hij hlt
      rw [abs_of_nonneg (by linarith), abs_of_nonneg (by linarith)]
      linarith
    obtain ⟨hinside, hscore⟩ := inside_of_nearer h.inside hj hstate hnear
    refine ⟨j, ⟨h.lane_mem, h.view_eq, hinside⟩, hoffered ?_ hinside, hscore⟩
    exact List.mem_append.mpr (Or.inr (Option.mem_toList.mpr hfound))

end Candidates

/-! ### The agreement -/

/-- What the two searches have in common. -/
structure SnapsAgree (separated : Prop) (plain sourced : Option (BitReadout ℚ)) : Prop where
  found : plain.isSome = sourced.isSome
  edge : ∀ r ∈ plain, ∀ r' ∈ sourced, r.bit.edge = r'.bit.edge
  same : separated → ∀ r ∈ plain, ∀ r' ∈ sourced,
    r.bit.parentChannelIndex = r'.bit.parentChannelIndex ∧ r.bit.bitIndex = r'.bit.bitIndex ∧
      r.bit.laneIndex = r'.bit.laneIndex ∧ r.time = r'.time ∧ r.bit.value = r'.bit.value

theorem SnapsAgree.of_eq {separated : Prop} {plain sourced : Option (BitReadout ℚ)}
    (hfound : plain.isSome = sourced.isSome)
    (hedge : ∀ r ∈ plain, ∀ r' ∈ sourced, r.bit.edge = r'.bit.edge)
    (hsame : separated → plain = sourced) : SnapsAgree separated plain sourced := by
  refine ⟨hfound, hedge, fun hseparated r hr r' hr' => ?_⟩
  rw [hsame hseparated] at hr
  obtain rfl := Option.some.inj (hr.symm.trans hr')
  exact ⟨rfl, rfl, rfl, rfl, rfl⟩

/-- The bit changes at a candidate, or there is none at all, or the candidates next to the cursor
are the ones that count. -/
def CursorSuffices (query : SnapQuery) (snapshot : WaveSnapshot ℚ) (sampleFrequencyHz : ℚ)
    (lanes : List (BitLaneLayoutEntry ℚ)) : Prop :=
  (∃ lane view i, query.Candidate snapshot sampleFrequencyHz lanes lane view i ∧
      Changes view lane i) ∨
    (∀ lane view i, ¬ query.Candidate snapshot sampleFrequencyHz lanes lane view i) ∨
    (∃ lane view i, query.Candidate snapshot sampleFrequencyHz lanes lane view i ∧
        i ∈ query.nextTo view) ∧
      (query.Separated snapshot sampleFrequencyHz lanes → ∀ lane view i,
        query.Candidate snapshot sampleFrequencyHz lanes lane view i →
        (∀ lane' view' i', query.Candidate snapshot sampleFrequencyHz lanes lane' view' i' →
          query.score view lane i ≤ query.score view' lane' i') →
        i ∈ query.nextTo view)

theorem Separated.apart (h : query.Separated snapshot sampleFrequencyHz lanes) (edge : Bool)
    {offered : BitSnapCandidate ℚ → Prop}
    (hoffered : ∀ c, offered c → ∃ lane view i,
      query.Candidate snapshot sampleFrequencyHz lanes lane view i ∧
        c = query.candidateAt view lane edge i) : BestSnaps.Apart offered := by
  intro c c' hc hc'
  obtain ⟨lane, view, i, hcandidate, rfl⟩ := hoffered c hc
  obtain ⟨lane', view', i', hcandidate', rfl⟩ := hoffered c' hc'
  rw [candidateAt_score, candidateAt_score]
  rcases h lane view i lane' view' i' hcandidate hcandidate' with ⟨rfl, rfl⟩ | hfar
  · obtain rfl := Option.some.inj (hcandidate.view_eq.symm.trans hcandidate'.view_eq)
    exact Or.inl rfl
  · exact Or.inr hfar

section Agreement

variable {plain sourced : BestSnaps ℚ}
  (hplain : BestSnaps.Held (allOffers snapshot sampleFrequencyHz query.scanOffers lanes) plain)
  (hsourced : BestSnaps.Held (allOffers snapshot sampleFrequencyHz query.sourceOffers lanes)
    sourced)

theorem scan_candidate {edge : Bool} {c : BitSnapCandidate ℚ}
    (hc : (edge, c) ∈ allOffers snapshot sampleFrequencyHz query.scanOffers lanes) :
    ∃ lane view i, query.Candidate snapshot sampleFrequencyHz lanes lane view i ∧
      c = query.candidateAt view lane edge i := by
  obtain ⟨lane, view, i, hcandidate, -, hc⟩ := mem_scan.mp hc
  exact ⟨lane, view, i, hcandidate, hc⟩

include hplain in
theorem plain_edge_iff :
    plain.edge.isSome = true ↔
      ∃ lane view i, query.Candidate snapshot sampleFrequencyHz lanes lane view i ∧
        Changes view lane i := by
  rw [hplain.edge.isSome_iff]
  constructor
  · rintro ⟨c, hc⟩
    obtain ⟨lane, view, i, h, hchanges, -⟩ := mem_scan.mp hc
    exact ⟨lane, view, i, h, hchanges.mp rfl⟩
  · rintro ⟨lane, view, i, h, hchanges⟩
    exact ⟨_, mem_scan.mpr ⟨lane, view, i, h, ⟨fun _ => hchanges, fun _ => rfl⟩, rfl⟩⟩

include hplain in
/-- Where the scan keeps no edge it is offered every candidate as a stable one. -/
theorem scan_stable (hnone : ¬ plain.edge.isSome = true) {lane : BitLaneLayoutEntry ℚ}
    {view : WaveQueryView ℚ} {i : ℕ}
    (h : query.Candidate snapshot sampleFrequencyHz lanes lane view i) :
    (false, query.candidateAt view lane false i) ∈
      allOffers snapshot sampleFrequencyHz query.scanOffers lanes := by
  refine mem_scan.mpr ⟨lane, view, i, h, ⟨fun hfalse => (by cases hfalse), fun hchanges => ?_⟩, rfl⟩
  exact absurd ((plain_edge_iff hplain).mpr ⟨lane, view, i, h, hchanges⟩) hnone

include hplain hsourced in
/-- Both searches find the same edges. -/
theorem edges_agree (hwhole : ∀ channel ∈ snapshot.channels, WholeHistory channel) :
    plain.edge.isSome = sourced.edge.isSome ∧
      (query.Separated snapshot sampleFrequencyHz lanes → plain.edge = sourced.edge) := by
  obtain ⟨hsome, hequal⟩ := hplain.edge.agree hsourced.edge
    (fun c hc => (by
      obtain ⟨lane, view, i, h, hchanges, hc⟩ := source_edge hwhole hc
      exact mem_scan.mpr ⟨lane, view, i, h, ⟨fun _ => hchanges, fun _ => rfl⟩, hc⟩))
    (fun c hc => (by
      obtain ⟨lane, view, i, h, hchanges, rfl⟩ := mem_scan.mp hc
      obtain ⟨j, -, hoffered, hscore⟩ := source_no_worse hwhole h (hchanges.mp rfl)
      refine ⟨_, hoffered, ?_⟩
      rw [candidateAt_score, candidateAt_score]
      exact hscore))
  exact ⟨hsome, fun hseparated => hequal (hseparated.apart true fun _ => scan_candidate)⟩

theorem scan_flag {flag : Bool} {c : BitSnapCandidate ℚ}
    (hc : (flag, c) ∈ allOffers snapshot sampleFrequencyHz query.scanOffers lanes) :
    c.readout.bit.edge = flag := by
  obtain ⟨lane, view, i, -, -, rfl⟩ := mem_scan.mp hc
  rfl

theorem source_flag (hwhole : ∀ channel ∈ snapshot.channels, WholeHistory channel) {flag : Bool}
    {c : BitSnapCandidate ℚ}
    (hc : (flag, c) ∈ allOffers snapshot sampleFrequencyHz query.sourceOffers lanes) :
    c.readout.bit.edge = flag := by
  cases flag with
  | true =>
    obtain ⟨lane, view, i, -, -, rfl⟩ := source_edge hwhole hc
    rfl
  | false =>
    obtain ⟨lane, view, i, -, -, rfl⟩ := mem_source_stable.mp hc
    rfl

include hplain hsourced in
theorem agree_of_cursorSuffices (hwhole : ∀ channel ∈ snapshot.channels, WholeHistory channel)
    (h : query.CursorSuffices snapshot sampleFrequencyHz lanes) :
    SnapsAgree (query.Separated snapshot sampleFrequencyHz lanes) plain.readout
      sourced.readout := by
  obtain ⟨hsome, hequal⟩ := edges_agree hplain hsourced hwhole
  have hedge : ∀ r ∈ plain.readout, ∀ r' ∈ sourced.readout, r.bit.edge = r'.bit.edge := by
    intro r hr r' hr'
    rw [hplain.readout_edge (fun _ _ => scan_flag) r hr,
      hsourced.readout_edge (fun _ _ => source_flag hwhole) r' hr', hsome]
  by_cases hchange : plain.edge.isSome = true
  · refine SnapsAgree.of_eq ?_ hedge fun hseparated => ?_
    · rw [readout_isSome, readout_isSome, ← hsome, hchange, Bool.true_or,
        Bool.true_or]
    · obtain ⟨c, hc⟩ := Option.isSome_iff_exists.mp hchange
      unfold readout
      rw [← hequal hseparated, hc]
  -- no edge: the stable candidates decide
  have hnone : plain.edge = none := Option.not_isSome_iff_eq_none.mp hchange
  have hnone' : sourced.edge = none :=
    Option.not_isSome_iff_eq_none.mp fun h => hchange (hsome.trans h)
  have hfound : plain.stable.isSome = sourced.stable.isSome := by
    rw [Bool.eq_iff_iff, hplain.stable.isSome_iff, hsourced.stable.isSome_iff]
    constructor
    · rintro ⟨c, hc⟩
      obtain ⟨lane, view, i, hcandidate, -⟩ := scan_candidate hc
      rcases h with hedge | hempty | ⟨⟨lane', view', i', hcandidate', hnext⟩, -⟩
      · exact absurd ((plain_edge_iff hplain).mpr hedge) hchange
      · exact absurd hcandidate (hempty lane view i)
      · exact ⟨_, mem_source_stable.mpr ⟨lane', view', i', hcandidate', hnext, rfl⟩⟩
    · rintro ⟨c, hc⟩
      obtain ⟨lane, view, i, hcandidate, -, -⟩ := mem_source_stable.mp hc
      exact ⟨_, scan_stable hplain hchange hcandidate⟩
  refine SnapsAgree.of_eq ?_ hedge fun hseparated => ?_
  · rw [readout_isSome, readout_isSome, hnone, hnone', hfound]
  have hapart := hseparated.apart false fun _ => scan_candidate
  have hcover : ∀ c, (false, c) ∈ allOffers snapshot sampleFrequencyHz query.scanOffers lanes →
      ∃ c', (false, c') ∈ allOffers snapshot sampleFrequencyHz query.sourceOffers lanes ∧
        c'.score ≤ c.score := by
    intro c hc
    obtain ⟨best, hbest⟩ := Option.isSome_iff_exists.mp (hplain.stable.found ⟨c, hc⟩)
    obtain ⟨lane, view, i, hcandidate, heq⟩ := scan_candidate (hplain.stable.member best hbest)
    have hleast := hplain.stable.least hapart best hbest
    rcases h with hedge | hempty | ⟨-, hsuffices⟩
    · exact absurd ((plain_edge_iff hplain).mpr hedge) hchange
    · exact absurd hcandidate (hempty lane view i)
    · refine ⟨best, mem_source_stable.mpr ⟨lane, view, i, hcandidate, ?_, heq⟩, hleast c hc⟩
      refine hsuffices hseparated lane view i hcandidate fun lane' view' i' hcandidate' => ?_
      have hle := hleast _ (scan_stable hplain hchange hcandidate')
      rw [heq, candidateAt_score, candidateAt_score] at hle
      exact hle
  obtain ⟨-, hsame⟩ := hplain.stable.agree hsourced.stable
    (fun c hc => (by
      obtain ⟨lane, view, i, hcandidate, -, rfl⟩ := mem_source_stable.mp hc
      exact scan_stable hplain hchange hcandidate)) hcover
  unfold readout
  rw [hnone, hnone', hsame hapart]

include hplain hsourced in
theorem cursorSuffices_of_agree (hwhole : ∀ channel ∈ snapshot.channels, WholeHistory channel)
    (h : SnapsAgree (query.Separated snapshot sampleFrequencyHz lanes) plain.readout
      sourced.readout) : query.CursorSuffices snapshot sampleFrequencyHz lanes := by
  obtain ⟨hsome, -⟩ := edges_agree hplain hsourced hwhole
  by_cases hchange : plain.edge.isSome = true
  · exact Or.inl ((plain_edge_iff hplain).mp hchange)
  by_cases hempty : ∀ lane view i,
      ¬ query.Candidate snapshot sampleFrequencyHz lanes lane view i
  · exact Or.inr (Or.inl hempty)
  push Not at hempty
  obtain ⟨lane, view, i, hcandidate⟩ := hempty
  have hnone : plain.edge = none := Option.not_isSome_iff_eq_none.mp hchange
  have hnone' : sourced.edge = none :=
    Option.not_isSome_iff_eq_none.mp fun h => hchange (hsome.trans h)
  have hfound := h.found
  rw [readout_isSome, readout_isSome, hnone, hnone', Option.isSome_none,
    Bool.false_or, Bool.false_or, hplain.stable.found ⟨_, scan_stable hplain hchange hcandidate⟩] at hfound
  obtain ⟨kept, hkept⟩ := Option.isSome_iff_exists.mp hfound.symm
  obtain ⟨lane₁, view₁, i₁, hcandidate₁, hnext, heq₁⟩ :=
    mem_source_stable.mp (hsourced.stable.member kept hkept)
  refine Or.inr (Or.inr ⟨⟨lane₁, view₁, i₁, hcandidate₁, hnext⟩, ?_⟩)
  intro hseparated lane₂ view₂ i₂ hcandidate₂ hleast
  -- the scan keeps the candidate with the least score
  obtain ⟨best, hbest⟩ := Option.isSome_iff_exists.mp
    (hplain.stable.found ⟨_, scan_stable hplain hchange hcandidate⟩)
  obtain ⟨lane₃, view₃, i₃, hcandidate₃, heq₃⟩ :=
    scan_candidate (hplain.stable.member best hbest)
  have hle := hplain.stable.least (hseparated.apart false fun _ => scan_candidate) best hbest _
    (scan_stable hplain hchange hcandidate₂)
  rw [heq₃, candidateAt_score, candidateAt_score] at hle
  have hscore : query.score view₂ lane₂ i₂ = query.score view₃ lane₃ i₃ :=
    le_antisymm (hleast lane₃ view₃ i₃ hcandidate₃) hle
  rcases hseparated lane₂ view₂ i₂ lane₃ view₃ i₃ hcandidate₂ hcandidate₃ with
    ⟨rfl, rfl⟩ | hfar
  · obtain rfl := Option.some.inj (hcandidate₂.view_eq.symm.trans hcandidate₃.view_eq)
    -- and with the source the same is read out, at the same time
    obtain ⟨hchannel, -, -, htime, -⟩ := h.same hseparated best.readout
      (show _ = _ by rw [readout, hnone, hbest]; rfl) kept.readout
      (show _ = _ by rw [readout, hnone', hkept]; rfl)
    rw [heq₃, heq₁] at hchannel htime
    have hviews : view₂ = view₁ := by
      have hview : laneView snapshot sampleFrequencyHz lane₂ =
          laneView snapshot sampleFrequencyHz lane₁ := by
        unfold laneView
        rw [show lane₂.parentChannelIndex = lane₁.parentChannelIndex from hchannel]
      exact Option.some.inj (hcandidate₂.view_eq.symm.trans (hview.trans hcandidate₁.view_eq))
    subst hviews
    obtain ⟨-, htimes⟩ := laneView_facts hwhole hcandidate₁.view_eq
    have hindex : i₂ = i₁ :=
      htimes.time_injective hcandidate₂.inside.1 hcandidate₁.inside.1 htime
    rw [hindex]
    exact hnext
  · rw [hscore, sub_self, abs_zero] at hfar
    exact absurd hfar (not_lt.mpr kMathEpsilon_pos.le)

end Agreement

end SnapQuery

open SnapQuery

/-- **With a source the search agrees with the scan exactly where the bit changes inside both
distances, or nothing is inside them, or the samples next to the cursor are the ones that
count.** -/
theorem bit_snaps_agree (snapshot : WaveSnapshot ℚ) (sampleFrequencyHz : ℚ) (pointBudget : ℕ)
    (timeRange : Option (ℚ × ℚ)) (mode : WaveDownsampleMode)
    (hwhole : ∀ channel ∈ snapshot.channels, WholeHistory channel)
    (lanes : List (BitLaneLayoutEntry ℚ)) (query : SnapQuery) :
    SnapsAgree (query.Separated snapshot sampleFrequencyHz lanes)
        (findNearestBitTransition snapshot (buildDisplayDataInto snapshot sampleFrequencyHz) lanes
          query.time query.plotY query.maxTimeDistance query.maxValueDistance)
        (findNearestBitTransition snapshot
          (buildQueryDisplayDataInto snapshot sampleFrequencyHz pointBudget timeRange mode) lanes
          query.time query.plotY query.maxTimeDistance query.maxValueDistance) ↔
      query.CursorSuffices snapshot sampleFrequencyHz lanes := by
  rw [plain_search hwhole, source_search hwhole]
  unfold search
  by_cases hnegative : query.maxTimeDistance < 0 ∨ query.maxValueDistance < 0
  · rw [if_pos hnegative, if_pos hnegative]
    exact ⟨fun _ => Or.inr (Or.inl fun _ _ i h => not_inside_of_negative hnegative i h.inside),
      fun _ => SnapsAgree.of_eq rfl (by simp) fun _ => rfl⟩
  · rw [if_neg hnegative, if_neg hnegative]
    have hplain := BestSnaps.held_considerAll
      (allOffers snapshot sampleFrequencyHz query.scanOffers lanes)
    have hsourced := BestSnaps.held_considerAll
      (allOffers snapshot sampleFrequencyHz query.sourceOffers lanes)
    exact ⟨cursorSuffices_of_agree hplain hsourced hwhole,
      agree_of_cursorSuffices hplain hsourced hwhole⟩

theorem falling_begin_le : 0 ≤ 3 := Nat.zero_le 3

theorem falling_end_le : 3 ≤ 3 := Nat.le_refl 3

/-- The first bit is set at times zero and one and falls at time two. -/
def fallingChannel : SnapshotChannel ℚ where
  samples := [⟨0, 1⟩, ⟨1, 1⟩, ⟨2, 0⟩]
  sampleIndexOffset := 0
  summaryIndex := none
  ratio := 1
  scale := 1
  offset := 0
  visibleBegin := 0
  visibleEnd := 3
  bitDisplayEnabled := true
  begin_le_end := falling_begin_le
  end_le_total := falling_end_le

def fallingSnapshot : WaveSnapshot ℚ where
  channels := [fallingChannel]
  displayFormula := .offsetThenScale

def firstBitLane : BitLaneLayoutEntry ℚ where
  parentChannelIndex := 0
  bitIndex := 0
  laneIndex := 0
  lowY := 0
  highY := 10

theorem fallingChannel_whole : WholeHistory fallingChannel :=
  ⟨rfl, rfl, by unfold fallingChannel; decide +kernel,
    [.slide 0 [⟨0, 1⟩, ⟨1, 1⟩, ⟨2, 0⟩] false], false, rfl⟩

theorem fallingSnapshot_whole : ∀ channel ∈ fallingSnapshot.channels, WholeHistory channel := by
  intro channel hchannel
  obtain rfl := List.mem_singleton.mp hchannel
  exact fallingChannel_whole

/-- At the edge, with the lower line in reach. -/
theorem bit_snaps_agree_falling :
    SnapsAgree (SnapQuery.Separated ⟨2, 0, 1, 1⟩ fallingSnapshot 0 [firstBitLane])
      (findNearestBitTransition fallingSnapshot (buildDisplayDataInto fallingSnapshot 0)
        [firstBitLane] 2 0 1 1)
      (findNearestBitTransition fallingSnapshot
        (buildQueryDisplayDataInto fallingSnapshot 0 100 none .stableEdges)
        [firstBitLane] 2 0 1 1) :=
  (bit_snaps_agree fallingSnapshot 0 100 none .stableEdges fallingSnapshot_whole [firstBitLane]
    ⟨2, 0, 1, 1⟩).mpr (Or.inl ⟨firstBitLane, fallingSnapshot.view 0 fallingChannel, 2,
      ⟨List.mem_singleton_self _, rfl, by decide +kernel⟩, by decide +kernel⟩)

/-- Just after the edge, with the upper line alone in reach: the scan finds the last sample at
which the bit was set, and with the source nothing is found. -/
theorem source_misses_stable_bit :
    let plain := findNearestBitTransition fallingSnapshot (buildDisplayDataInto fallingSnapshot 0)
      [firstBitLane] (5 / 2) 10 2 1
    let sourced := findNearestBitTransition fallingSnapshot
      (buildQueryDisplayDataInto fallingSnapshot 0 100 none .stableEdges)
      [firstBitLane] (5 / 2) 10 2 1
    plain.map (·.sampleIndex) = some 1 ∧ sourced = none ∧
      ¬ SnapsAgree (SnapQuery.Separated ⟨5 / 2, 10, 2, 1⟩ fallingSnapshot 0 [firstBitLane])
        plain sourced := by
  refine ⟨by decide +kernel, by decide +kernel, fun h => ?_⟩
  have hfound := h.found
  revert hfound
  decide +kernel

end ProtoScope.Plot
