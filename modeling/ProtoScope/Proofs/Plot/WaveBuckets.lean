/-
Bucketed queries partition the window.

The loop over the buckets cuts the samples into consecutive parts.  On ordered times the position
where a bucket ends is the first sample that is not before its border, however many samples share a
time, so clamping it to the end of the bucket before changes nothing and a part holds exactly the
samples whose times lie in the bucket.  The digital buckets need less: whatever the borders are, the
parts are consecutive and the empty ones are left out.
-/
import Mathlib.Order.Interval.Finset.Nat
import ProtoScope.Library.RunningCuts
import ProtoScope.Plot.WaveBuckets
import ProtoScope.Proofs.Plot.DigitalSegments
import ProtoScope.Proofs.Plot.StableBuckets

namespace ProtoScope.Plot

open ProtoScope.Library
open ProtoScope.Library.RunningCuts
open WaveScalar

/-- Every finite value of a scan is counted. -/
theorem scanOf_finiteCount {α : Type} [WaveScalar α] {sample : ℕ → WaveSample α} {begin fin : ℕ}
    (h : begin < fin)
    (hfinite : ∀ i, begin ≤ i → i < fin → isFinite (sample i).value = true) :
    (scanOf sample begin fin).finiteCount = fin - begin := by
  have hone : ∀ i, begin ≤ i → i < fin →
      (WaveSummary.single i (sample i)).finiteCount = 1 := by
    intro i hi hlt
    simp [WaveSummary.single, hfinite i hi hlt]
  induction fin, h using Nat.le_induction with
  | base =>
    rw [scanOf_one, hone begin (Nat.le_refl _) (Nat.lt_succ_self _)]
    omega
  | succ fin h ih =>
    have hbefore := ih (fun i hi hlt => hfinite i hi (by omega))
      fun i hi hlt => hone i hi (by omega)
    obtain ⟨-, hcount, -, -⟩ :=
      merge_fields (scanOf_count_ne_zero h) (single_count_ne_zero fin (sample fin))
    rw [scanOf_succ sample (by omega), hcount, hbefore, hone fin (by omega) (Nat.lt_succ_self _)]
    omega

namespace WaveQueryView

variable {view : WaveQueryView ℚ} {minTime maxTime : ℚ}

/-! ### What the buckets should hold -/

/-- Whether a time lies in bucket `b`; the last bucket includes its end. -/
def InBucket (minTime maxTime : ℚ) (buckets b : ℕ) (t : ℚ) : Prop :=
  bucketTime minTime maxTime buckets b ≤ t ∧
    (t < bucketTime minTime maxTime buckets (b + 1) ∨
      b + 1 = buckets ∧ t = bucketTime minTime maxTime buckets (b + 1))

instance (minTime maxTime : ℚ) (buckets b : ℕ) (t : ℚ) :
    Decidable (InBucket minTime maxTime buckets b t) :=
  inferInstanceAs (Decidable (_ ∧ _))

/-- The samples whose times lie in bucket `b` of a window. -/
def bucketSamples (view : WaveQueryView ℚ) (minTime maxTime : ℚ) (buckets b : ℕ) : Finset ℕ :=
  (Finset.range view.size).filter fun i => InBucket minTime maxTime buckets b (view.time i)

/-- The samples inside the closed window. -/
def windowSamples (view : WaveQueryView ℚ) (minTime maxTime : ℚ) : Finset ℕ :=
  (Finset.range view.size).filter fun i => minTime ≤ view.time i ∧ view.time i ≤ maxTime

/-- An envelope counts these samples and holds the bounds of their displayed values. -/
structure Bounds (view : WaveQueryView ℚ) (samples : Finset ℕ) (envelope : WaveTimeEnvelope ℚ) :
    Prop where
  count : envelope.sampleCount = samples.card
  least : (∃ i ∈ samples, (view.sample i).value = envelope.minValue) ∧
    ∀ i ∈ samples, envelope.minValue ≤ (view.sample i).value
  greatest : (∃ i ∈ samples, (view.sample i).value = envelope.maxValue) ∧
    ∀ i ∈ samples, (view.sample i).value ≤ envelope.maxValue

/-- The envelope of bucket `b`. -/
structure BucketEnvelope (view : WaveQueryView ℚ) (minTime maxTime : ℚ) (buckets b : ℕ)
    (envelope : WaveTimeEnvelope ℚ) : Prop where
  beginTime : envelope.beginTime = bucketTime minTime maxTime buckets b
  endTime : envelope.endTime = bucketTime minTime maxTime buckets (b + 1)
  bounds : Bounds view (view.bucketSamples minTime maxTime buckets b) envelope

/-- The envelopes of a window are those of the buckets that hold a sample, in their order; every
sample of the window is in exactly one bucket. -/
structure EnvelopesPartition (view : WaveQueryView ℚ) (minTime maxTime : ℚ) (buckets : ℕ)
    (envelopes : List (WaveTimeEnvelope ℚ)) : Prop where
  drawn : List.Forall₂ (BucketEnvelope view minTime maxTime buckets)
    ((List.range buckets).filter fun b =>
      0 < (view.bucketSamples minTime maxTime buckets b).card) envelopes
  proper : ∀ envelope ∈ envelopes, envelope.beginTime ≤ envelope.endTime
  ordered : envelopes.Pairwise fun a b => a.endTime ≤ b.beginTime
  once : ∀ i ∈ view.windowSamples minTime maxTime,
    ∃! b, b < buckets ∧ i ∈ view.bucketSamples minTime maxTime buckets b
  counted : (envelopes.map (·.sampleCount)).sum = (view.windowSamples minTime maxTime).card

/-- A digital bucket describes the samples of a part: its ends, and the bits that take both
values. -/
structure GroupOf (view : WaveQueryView ℚ) (part : ℕ × ℕ) (bucket : WaveDigitalBucket ℚ) :
    Prop where
  beginTime : bucket.beginTime = view.time part.1
  endTime : bucket.endTime = view.time (part.2 - 1)
  firstBits : bucket.firstBits = waveRawBits (view.rawSample part.1).value
  lastBits : bucket.lastBits = waveRawBits (view.rawSample (part.2 - 1)).value
  activity : ∀ bit : Fin 64, bucket.activity.toNat.testBit bit = true ↔
    ∃ i j, (part.1 ≤ i ∧ i < part.2) ∧ (part.1 ≤ j ∧ j < part.2) ∧
      view.bitState bit i = true ∧ view.bitState bit j = false

/-- The digital buckets describe consecutive parts of a range, at most `budget` of them and none
empty. -/
def GroupsPartition (view : WaveQueryView ℚ) (range : ℕ × ℕ) (budget : ℕ)
    (result : List (WaveDigitalBucket ℚ)) : Prop :=
  ∃ parts, Consecutive range.1 parts range.2 ∧ parts.length ≤ budget ∧
    List.Forall₂ (GroupOf view) parts result

/-! ### Lists of the rounds that put something out -/

section Rounds

variable {β γ δ : Type} {R : γ → δ → Prop} {emit : β → Option γ}

theorem forall₂_filterMap {other : β → Option δ} {rounds : List β}
    (h : ∀ b ∈ rounds, Option.Rel R (emit b) (other b)) :
    List.Forall₂ R (rounds.filterMap emit) (rounds.filterMap other) := by
  induction rounds with
  | nil => exact .nil
  | cons b rest ih =>
    have hrest := ih fun c hc => h c (List.mem_cons_of_mem _ hc)
    have hfirst := h b List.mem_cons_self
    rw [List.filterMap_cons, List.filterMap_cons]
    generalize emit b = first, other b = second at hfirst ⊢
    cases hfirst with
    | none => exact hrest
    | some hR => exact .cons hR hrest

theorem sum_filterMap {weight : γ → ℕ} {total : β → ℕ} {rounds : List β}
    (h : ∀ b ∈ rounds, (emit b).elim 0 weight = total b) :
    ((rounds.filterMap emit).map weight).sum = (rounds.map total).sum := by
  induction rounds with
  | nil => rfl
  | cons b rest ih =>
    have hrest := ih fun c hc => h c (List.mem_cons_of_mem _ hc)
    have hfirst := h b List.mem_cons_self
    rw [List.map_cons, List.sum_cons, ← hrest, ← hfirst]
    cases hemit : emit b with
    | none => simp [hemit]
    | some out => simp [hemit]

end Rounds

/-! ### The positions between two borders -/

theorem borderTime_eq (buckets b : ℕ) :
    borderTime minTime maxTime buckets b = bucketTime minTime maxTime buckets b := rfl

theorem bucketTime_zero (buckets : ℕ) : bucketTime minTime maxTime buckets 0 = minTime := by
  simp [bucketTime]

/-- A border that is not later is found no later. -/
theorem TimesAscend.bound_le_bound (htimes : view.TimesAscend) {s t : ℚ} (h : s ≤ t) :
    view.bound s false ≤ view.bound t false := by
  by_contra hlt
  have hsize := @bound_le_size _ _ view s false
  have hbefore := (htimes.before_iff (by omega)).mp (Nat.lt_of_not_le hlt)
  have hnot := mt (htimes.before_iff (by omega)).mpr (Nat.lt_irrefl (view.bound t false))
  exact hnot (hbefore.trans_le h)

/-- A border inside the window is found before its end. -/
theorem TimesAscend.bound_le_fin (htimes : view.TimesAscend) {s t : ℚ} (h : s ≤ t) :
    view.bound s false ≤ view.bound t true := by
  by_contra hlt
  have hsize := @bound_le_size _ _ view s false
  have hbefore := (htimes.before_iff (by omega)).mp (Nat.lt_of_not_le hlt)
  have hnot := mt (htimes.upto_iff (by omega)).mpr (Nat.lt_irrefl (view.bound t true))
  exact hnot (hbefore.le.trans h)

section Cuts

variable {buckets : ℕ}

/-- Where bucket `b` begins in the loop of `timeEnvelope`. -/
theorem cut_eq (htimes : view.TimesAscend) (hle : minTime ≤ maxTime) (hbuckets : 0 < buckets) :
    ∀ b ≤ buckets,
      cut (view.bucketFin minTime maxTime (view.bound maxTime true) buckets)
          (view.bound minTime false) b =
        if b = buckets then view.bound maxTime true
        else view.bound (bucketTime minTime maxTime buckets b) false := by
  intro b
  induction b with
  | zero =>
    intro _
    rw [if_neg (by omega), bucketTime_zero]
    rfl
  | succ b ih =>
    intro hb
    have hleft := ih (by omega)
    rw [if_neg (by omega)] at hleft
    rw [cut, hleft]
    unfold bucketFin
    by_cases hlast : b + 1 = buckets
    · rw [if_pos hlast, if_pos hlast]
    · have hborder : bucketTime minTime maxTime buckets (b + 1) ≤ maxTime := by
        have hmono : bucketTime minTime maxTime buckets (b + 1) ≤
            bucketTime minTime maxTime buckets buckets := bucketTime_mono hle hb
        rwa [bucketTime_last hbuckets] at hmono
      have hnext : bucketTime minTime maxTime buckets b ≤
          bucketTime minTime maxTime buckets (b + 1) := bucketTime_mono hle (Nat.le_succ b)
      have hfrom := htimes.bound_le_bound hnext
      have hupto := htimes.bound_le_fin hborder
      rw [if_neg hlast, if_neg hlast]
      dsimp only
      rw [range_same, borderTime_eq, clampIndex_eq _ (hfrom.trans hupto)]
      omega

/-- **A part of the loop holds the samples of its bucket.** -/
theorem mem_part (htimes : view.TimesAscend) (hle : minTime ≤ maxTime) {b i : ℕ}
    (hb : b < buckets) :
    let next := view.bucketFin minTime maxTime (view.bound maxTime true) buckets
    let begin := view.bound minTime false
    i ∈ view.bucketSamples minTime maxTime buckets b ↔
      cut next begin b ≤ i ∧ i < cut next begin (b + 1) := by
  intro next begin
  have hbegin : cut next begin b = view.bound (bucketTime minTime maxTime buckets b) false := by
    rw [cut_eq htimes hle (by omega) b hb.le, if_neg (by omega)]
  have hend : cut next begin (b + 1) = if b + 1 = buckets then view.bound maxTime true
      else view.bound (bucketTime minTime maxTime buckets (b + 1)) false :=
    cut_eq htimes hle (by omega) (b + 1) hb
  have hsize : cut next begin (b + 1) ≤ view.size := by
    rw [hend]
    split <;> exact bound_le_size _ _
  unfold bucketSamples
  rw [Finset.mem_filter, Finset.mem_range]
  unfold InBucket
  by_cases hi : i < view.size
  · have hfrom : bucketTime minTime maxTime buckets b ≤ view.time i ↔ cut next begin b ≤ i := by
      rw [hbegin, ← not_lt, ← htimes.before_iff hi, not_lt]
    have hupto : (view.time i < bucketTime minTime maxTime buckets (b + 1) ∨
        b + 1 = buckets ∧ view.time i = bucketTime minTime maxTime buckets (b + 1)) ↔
        i < cut next begin (b + 1) := by
      rw [hend]
      by_cases hlast : b + 1 = buckets
      · rw [if_pos hlast, htimes.upto_iff hi, hlast, bucketTime_last (by omega), le_iff_lt_or_eq]
        simp
      · rw [if_neg hlast, htimes.before_iff hi]
        simp [hlast]
    rw [hfrom, hupto]
    exact and_iff_right hi
  · constructor
    · intro h
      exact absurd h.1 hi
    · intro h
      omega

theorem bucketSamples_eq (htimes : view.TimesAscend) (hle : minTime ≤ maxTime) {b : ℕ}
    (hb : b < buckets) :
    let next := view.bucketFin minTime maxTime (view.bound maxTime true) buckets
    let begin := view.bound minTime false
    view.bucketSamples minTime maxTime buckets b =
      Finset.Ico (cut next begin b) (cut next begin (b + 1)) := by
  intro next begin
  ext i
  have hpart := @mem_part view minTime maxTime buckets htimes hle b i hb
  rw [Finset.mem_Ico]
  exact hpart

theorem windowSamples_eq (htimes : view.TimesAscend) :
    view.windowSamples minTime maxTime =
      Finset.Ico (view.bound minTime false) (view.bound maxTime true) := by
  ext i
  unfold windowSamples
  rw [Finset.mem_filter, Finset.mem_range, Finset.mem_Ico]
  by_cases hi : i < view.size
  · rw [htimes.upto_iff hi, ← not_lt, ← htimes.before_iff hi, not_lt]
    exact and_iff_right hi
  · have hsize := @bound_le_size _ _ view maxTime true
    constructor
    · intro h
      exact absurd h.1 hi
    · intro h
      omega

theorem bucketFin_ascending (htimes : view.TimesAscend) (hle : minTime ≤ maxTime)
    (hbuckets : 0 < buckets) :
    Ascending (view.bucketFin minTime maxTime (view.bound maxTime true) buckets)
      (view.bound minTime false) buckets := by
  intro b hb
  rw [cut_eq htimes hle hbuckets b hb.le, cut_eq htimes hle hbuckets (b + 1) hb,
    if_neg (by omega)]
  have hnext : bucketTime minTime maxTime buckets b ≤
      bucketTime minTime maxTime buckets (b + 1) := bucketTime_mono hle (Nat.le_succ b)
  split
  · rename_i hlast
    have hborder := hnext
    rw [hlast, bucketTime_last hbuckets] at hborder
    exact htimes.bound_le_fin hborder
  · exact htimes.bound_le_bound hnext

end Cuts

/-! ### What one bucket puts out -/

section Emitted

variable {left right : ℕ} {t0 t1 : ℚ}

theorem envelopeOf_empty (hsync : view.channel.Synced) (hsize : left ≤ view.size) :
    view.envelopeOf t0 t1 left left = none := by
  unfold envelopeOf
  rw [summary_eq hsync (Nat.le_refl left) hsize, scanOf_empty _ (Nat.le_refl _)]
  exact if_pos rfl

/-- **The envelope of a part is that of its samples**: either formula is a straight line, so the
least and the greatest value are displayed as its bounds, in one order or the other. -/
theorem envelopeOf_bounds (hsync : view.channel.Synced) (hlt : left < right)
    (hsize : right ≤ view.size) :
    ∃ envelope, view.envelopeOf t0 t1 left right = some envelope ∧
      (envelope.beginTime = t0 ∧ envelope.endTime = t1) ∧
      Bounds view (Finset.Ico left right) envelope := by
  have hs := summary_summarized hsync hlt hsize
  have hbetween := fun i hi hlt => @displayed_between view hsync left right i hsize hi hlt
  have hcount : (view.summary left right).count = right - left := by
    rw [summary_eq hsync hlt.le hsize, (scanOf_ends (by omega)).count]
    omega
  have hfinite : (view.summary left right).finiteCount ≠ 0 := by
    rw [summary_eq hsync hlt.le hsize, scanOf_finiteCount (by omega) fun _ _ _ => rfl]
    omega
  have hleast := hs.minimum
  have hgreatest := hs.maximum
  unfold localIndex at hleast hgreatest
  unfold envelopeOf
  dsimp only at hbetween ⊢
  rw [if_neg hfinite]
  generalize hlow : view.sample ((view.summary left right).minimum -
    view.channel.sampleIndexOffset) = low at hbetween ⊢
  generalize hhigh : view.sample ((view.summary left right).maximum -
    view.channel.sampleIndexOffset) = high at hbetween ⊢
  have hmin : (if lt high.value low.value then high.value else low.value) =
      min low.value high.value := by
    rw [min_comm, min_def_lt]
    simp [lt]
  have hmax : (if lt low.value high.value then high.value else low.value) =
      max low.value high.value := by
    rw [max_def_lt]
    simp [lt]
  have hlowIn : (view.summary left right).minimum - view.channel.sampleIndexOffset ∈
      Finset.Ico left right := Finset.mem_Ico.mpr hleast
  have hhighIn : (view.summary left right).maximum - view.channel.sampleIndexOffset ∈
      Finset.Ico left right := Finset.mem_Ico.mpr hgreatest
  refine ⟨⟨t0, t1, min low.value high.value, max low.value high.value, right - left⟩, ?_,
    ⟨rfl, rfl⟩, ?_, ⟨?_, ?_⟩, ?_, ?_⟩
  · rw [hmin, hmax, hcount]
    exact if_pos rfl
  · exact (Nat.card_Ico left right).symm
  · rcases min_choice low.value high.value with hchoice | hchoice
    · exact ⟨_, hlowIn, by rw [hlow, hchoice]⟩
    · exact ⟨_, hhighIn, by rw [hhigh, hchoice]⟩
  · intro i hi
    obtain ⟨hle, hlt⟩ := Finset.mem_Ico.mp hi
    exact (hbetween i hle hlt).1
  · rcases max_choice low.value high.value with hchoice | hchoice
    · exact ⟨_, hlowIn, by rw [hlow, hchoice]⟩
    · exact ⟨_, hhighIn, by rw [hhigh, hchoice]⟩
  · intro i hi
    obtain ⟨hle, hlt⟩ := Finset.mem_Ico.mp hi
    exact (hbetween i hle hlt).2

/-- **The digital bucket of a part** is exact at its ends and in the bits that change. -/
theorem digitalBucketOf_group (hsync : view.channel.Synced) (hlt : left < right)
    (hsize : right ≤ view.size) :
    ∃ bucket, view.digitalBucketOf left right = some bucket ∧
      GroupOf view (left, right) bucket := by
  have hglobal :
      left + view.channel.sampleIndexOffset < right + view.channel.sampleIndexOffset := by omega
  have hends := @scanOf_ends _ _ (sampleAt view.channel.samples view.channel.sampleIndexOffset) _ _
    hglobal
  have hs := summary_eq hsync hlt.le hsize
  refine ⟨_, if_neg hlt.ne, rfl, rfl, ?_, ?_, ?_⟩
  · dsimp only
    rw [hs, hends.firstBits, bitsOf, sampleAt_eq]
  · have hlast : right + view.channel.sampleIndexOffset - 1 =
        right - 1 + view.channel.sampleIndexOffset := by omega
    dsimp only
    rw [hs, hends.lastBits, hlast, bitsOf, sampleAt_eq]
  · intro bit
    have hconstant := constantBit_summary hsync hlt hsize bit
    rw [constantBit_iff] at hconstant
    dsimp only
    rw [← not_iff_not, Bool.not_eq_true, hconstant]
    constructor
    · rintro hsame ⟨i, j, ⟨hi, hiRight⟩, ⟨hj, hjRight⟩, hset, hclear⟩
      rw [hsame i hi hiRight] at hset
      rw [hsame j hj hjRight, hset] at hclear
      cases hclear
    · intro hnone i hi hiRight
      by_contra hne
      cases hstate : view.bitState bit left with
      | true =>
        rw [hstate] at hne
        exact hnone ⟨left, i, ⟨Nat.le_refl _, hlt⟩, ⟨hi, hiRight⟩, hstate, by simpa using hne⟩
      | false =>
        rw [hstate] at hne
        exact hnone ⟨i, left, ⟨hi, hiRight⟩, ⟨Nat.le_refl _, hlt⟩, by simpa using hne, hstate⟩

end Emitted

/-! ### The loops -/

section Loops

variable {buckets budget : ℕ}

/-- The envelopes of an ordered window are those of the parts of the loop; where the window shows no
sample every part is empty. -/
theorem timeEnvelope_eq (hsync : view.channel.Synced) (htimes : view.TimesAscend)
    (hle : minTime ≤ maxTime) (hbuckets : 0 < buckets) :
    let next := view.bucketFin minTime maxTime (view.bound maxTime true) buckets
    let begin := view.bound minTime false
    view.timeEnvelope minTime maxTime buckets =
      (List.range buckets).filterMap fun b =>
        view.envelopeOf (bucketTime minTime maxTime buckets b)
          (bucketTime minTime maxTime buckets (b + 1)) (cut next begin b)
          (cut next begin (b + 1)) := by
  intro next begin
  have hascending := bucketFin_ascending htimes hle hbuckets
  have hloop := @foldl_visit _ next (fun b => view.envelopeOf
    (bucketTime minTime maxTime buckets b) (bucketTime minTime maxTime buckets (b + 1))) begin
    buckets
  have hfin : cut next begin buckets = view.bound maxTime true := by
    rw [cut_eq htimes hle hbuckets buckets (Nat.le_refl _), if_pos rfl]
  unfold timeEnvelope
  dsimp only
  rw [range_ordered, range_eq, ordered_eq, min_eq_left hle, max_eq_right hle]
  dsimp only
  by_cases hempty : begin = view.bound maxTime true
  · rw [if_pos (.inl hempty)]
    refine (List.filterMap_eq_nil_iff.mpr fun b hb => ?_).symm
    have hb := List.mem_range.mp hb
    have hleft : begin ≤ cut next begin b := hascending.le (Nat.zero_le b) hb.le
    have hmiddle : cut next begin b ≤ cut next begin (b + 1) := hascending b hb
    have hright : cut next begin (b + 1) ≤ cut next begin buckets :=
      hascending.le hb (Nat.le_refl _)
    have hsame : cut next begin (b + 1) = cut next begin b := by omega
    have hsize : cut next begin b ≤ view.size := by
      have hend := @bound_le_size _ _ view maxTime true
      omega
    rw [hsame]
    exact envelopeOf_empty hsync hsize
  · rw [if_neg (by omega)]
    exact congrArg Prod.snd hloop

/-- **The envelopes of an ordered window partition it.** -/
theorem timeEnvelope_partition (hsync : view.channel.Synced) (htimes : view.TimesAscend)
    (hle : minTime ≤ maxTime) (hbuckets : 0 < buckets) :
    EnvelopesPartition view minTime maxTime buckets
      (view.timeEnvelope minTime maxTime buckets) := by
  have hascending := bucketFin_ascending htimes hle hbuckets
  have hfin := cut_eq htimes hle hbuckets buckets (Nat.le_refl _)
  rw [if_pos rfl] at hfin
  have hsamples := fun b (hb : b < buckets) =>
    @bucketSamples_eq view minTime maxTime buckets htimes hle b hb
  have hmem := fun b i (hb : b < buckets) =>
    @mem_part view minTime maxTime buckets htimes hle b i hb
  rw [timeEnvelope_eq hsync htimes hle hbuckets]
  dsimp only at hsamples hmem ⊢
  generalize view.bucketFin minTime maxTime (view.bound maxTime true) buckets = next at *
  generalize hlow : view.bound minTime false = begin at *
  have hsize : ∀ b < buckets, cut next begin (b + 1) ≤ view.size := by
    intro b hb
    exact (hascending.le hb (Nat.le_refl _)).trans (hfin ▸ bound_le_size _ _)
  have hnone : ∀ b < buckets, ¬ cut next begin b < cut next begin (b + 1) → ∀ t0 t1,
      view.envelopeOf t0 t1 (cut next begin b) (cut next begin (b + 1)) = none := by
    intro b hb hnot t0 t1
    have hsame := Nat.le_antisymm (Nat.le_of_not_lt hnot) (hascending b hb)
    rw [hsame]
    exact envelopeOf_empty hsync (hsame ▸ hsize b hb)
  have hsome := fun b (hb : b < buckets) (hlt : cut next begin b < cut next begin (b + 1)) =>
    @envelopeOf_bounds view _ _ (bucketTime minTime maxTime buckets b)
      (bucketTime minTime maxTime buckets (b + 1)) hsync hlt (hsize b hb)
  have hcard : ∀ b < buckets, (view.bucketSamples minTime maxTime buckets b).card =
      cut next begin (b + 1) - cut next begin b := by
    intro b hb
    rw [hsamples b hb, Nat.card_Ico]
  have hout : ∀ b < buckets, ∀ envelope,
      view.envelopeOf (bucketTime minTime maxTime buckets b)
          (bucketTime minTime maxTime buckets (b + 1)) (cut next begin b)
          (cut next begin (b + 1)) = some envelope →
        BucketEnvelope view minTime maxTime buckets b envelope := by
    intro b hb envelope henvelope
    by_cases hlt : cut next begin b < cut next begin (b + 1)
    · obtain ⟨drawn, hdrawn, ⟨hbegin, hend⟩, hbounds⟩ := hsome b hb hlt
      obtain rfl : drawn = envelope := Option.some.inj (hdrawn.symm.trans henvelope)
      exact ⟨hbegin, hend, (hsamples b hb).symm ▸ hbounds⟩
    · rw [hnone b hb hlt] at henvelope
      cases henvelope
  refine ⟨?_, ?_, ?_, ?_, ?_⟩
  · rw [← List.filterMap_eq_filter]
    refine forall₂_filterMap fun b hb => ?_
    have hb := List.mem_range.mp hb
    unfold Option.guard
    beta_reduce
    rw [hcard b hb]
    by_cases hlt : cut next begin b < cut next begin (b + 1)
    · obtain ⟨envelope, henvelope, -⟩ := hsome b hb hlt
      rw [if_pos (decide_eq_true (by omega)), henvelope]
      exact .some (hout b hb envelope henvelope)
    · rw [if_neg (by rw [decide_eq_true_eq]; omega), hnone b hb hlt]
      exact .none
  · intro envelope henvelope
    obtain ⟨b, hb, hemit⟩ := List.mem_filterMap.mp henvelope
    obtain ⟨hbegin, hend, -⟩ := hout b (List.mem_range.mp hb) envelope hemit
    rw [hbegin, hend]
    exact bucketTime_mono hle (Nat.le_succ b)
  · refine List.pairwise_filterMap.mpr ?_
    refine List.Pairwise.imp_of_mem ?_ List.pairwise_lt_range
    intro b c hb hc hlt first hfirst second hsecond
    rw [(hout b (List.mem_range.mp hb) first hfirst).endTime,
      (hout c (List.mem_range.mp hc) second hsecond).beginTime]
    exact bucketTime_mono hle hlt
  · intro i hi
    rw [windowSamples_eq htimes, Finset.mem_Ico, hlow] at hi
    obtain ⟨b, hb, hpart⟩ := exists_part hi.1 (hfin.symm ▸ hi.2)
    refine ⟨b, ⟨hb, (hmem b i hb).mpr hpart⟩, ?_⟩
    rintro c ⟨hc, hin⟩
    exact hascending.part_unique hc hb ((hmem c i hc).mp hin) hpart
  · rw [windowSamples_eq htimes, hlow, Nat.card_Ico, ← hfin, ← hascending.sum]
    apply sum_filterMap
    intro b hb
    have hb := List.mem_range.mp hb
    by_cases hlt : cut next begin b < cut next begin (b + 1)
    · obtain ⟨envelope, henvelope, -⟩ := hsome b hb hlt
      rw [henvelope, Option.elim_some, (hout b hb envelope henvelope).bounds.count, hcard b hb]
    · rw [hnone b hb hlt, Option.elim_none]
      omega

/-- A bucket that begins inside a range ends inside it and not before it begins, and the last one
ends where the range does. -/
theorem bucketFin_within {left fin count b : ℕ} (hle : left ≤ fin) :
    (left ≤ view.bucketFin minTime maxTime fin count left b ∧
      view.bucketFin minTime maxTime fin count left b ≤ fin) ∧
    (b + 1 = count → view.bucketFin minTime maxTime fin count left b = fin) := by
  unfold bucketFin
  by_cases hlast : b + 1 = count
  · rw [if_pos hlast]
    exact ⟨⟨hle, Nat.le_refl _⟩, fun _ => rfl⟩
  · rw [if_neg hlast]
    dsimp only
    rw [clampIndex_eq _ hle]
    exact ⟨by omega, fun h => absurd h hlast⟩

theorem isNumber (t : ℚ) : IsNumber t := fun _ _ hab => LawfulWaveScalar.lt_or_lt rfl hab

/-- **The digital buckets partition the window with its guards**, whatever its borders are. -/
theorem digitalBuckets_partition (hsync : view.channel.Synced) (hbudget : 0 < budget) :
    GroupsPartition view (view.range minTime maxTime true) budget
      (view.digitalBuckets minTime maxTime budget) := by
  obtain ⟨hnonempty, -, hbefore, hafter, hsize⟩ :=
    @range_guarded _ _ view _ minTime maxTime (isNumber _) true
  have hbegin := hbefore.trans (hnonempty.trans hafter)
  unfold digitalBuckets GroupsPartition
  dsimp only
  generalize (view.range minTime maxTime true).1 = begin at hbegin ⊢
  generalize (view.range minTime maxTime true).2 = fin at hbegin hsize ⊢
  by_cases hempty : begin = fin
  · rw [if_pos (.inl hempty)]
    exact ⟨[], hempty, Nat.zero_le _, .nil⟩
  · rw [if_neg (by omega)]
    generalize hcount : min budget (fin - begin) = count
    have hloop := @foldl_visit _ (view.bucketFin minTime maxTime fin count)
      (fun _ => view.digitalBucketOf) begin count
    have hinside : ∀ b, cut (view.bucketFin minTime maxTime fin count) begin b ≤ fin := by
      intro b
      induction b with
      | zero => exact hbegin
      | succ b ih => exact (bucketFin_within ih).1.2
    have hascending : Ascending (view.bucketFin minTime maxTime fin count) begin count :=
      fun b _ => (bucketFin_within (hinside b)).1.1
    have hfin : cut (view.bucketFin minTime maxTime fin count) begin count = fin := by
      obtain ⟨last, rfl⟩ : ∃ last, count = last + 1 := ⟨count - 1, by omega⟩
      exact (bucketFin_within (hinside last)).2 rfl
    have hparts := hascending.consecutive
    rw [hfin] at hparts
    refine ⟨_, hparts, (List.length_filterMap_le _ _).trans ?_, ?_⟩
    · rw [List.length_range]
      omega
    · change List.Forall₂ _ _ ((List.range count).foldl
        (visit (view.bucketFin minTime maxTime fin count) fun _ => view.digitalBucketOf)
        (begin, [])).2
      rw [hloop]
      refine forall₂_filterMap fun b hb => ?_
      have hb := List.mem_range.mp hb
      unfold part?
      by_cases hsame : cut (view.bucketFin minTime maxTime fin count) begin b =
          cut (view.bucketFin minTime maxTime fin count) begin (b + 1)
      · have hnone : view.digitalBucketOf
            (cut (view.bucketFin minTime maxTime fin count) begin b)
            (cut (view.bucketFin minTime maxTime fin count) begin (b + 1)) = none := if_pos hsame
        rw [if_pos hsame, hnone]
        exact .none
      · obtain ⟨bucket, hbucket, hgroup⟩ := digitalBucketOf_group hsync
          (lt_of_le_of_ne (hascending b hb) hsame) ((hinside (b + 1)).trans hsize)
        rw [if_neg hsame, hbucket]
        exact .some hgroup

end Loops

end WaveQueryView

open WaveQueryView

/-- **Bucketed queries partition the window.**  On ordered times, and for any window and any number
of buckets, the envelopes are those of the buckets that hold a sample, in their order: each counts
exactly the samples whose times lie in its bucket and holds the exact bounds of what is displayed
for them, and the counts add up to the number of samples in the closed window.  The digital buckets
describe consecutive parts of the window with its guards, exact at their ends and in the bits that
take both values. -/
theorem buckets_partition (steps : List (WindowStep ℚ)) (indexed : Bool)
    (ratio scale offset : ℚ) (axis : WaveTimeAxisSource) (frequency : ℚ)
    (formula : WaveDisplayFormula) (minTime maxTime : ℚ) (buckets : ℕ) :
    let view : WaveQueryView ℚ :=
      ⟨(SampleWindow.run steps).channel indexed ratio scale offset, axis, frequency, formula⟩
    view.TimesAscend → 0 < buckets →
    EnvelopesPartition view (min minTime maxTime) (max minTime maxTime) buckets
        (view.timeEnvelope minTime maxTime buckets) ∧
      GroupsPartition view (view.range minTime maxTime true) buckets
        (view.digitalBuckets minTime maxTime buckets) := by
  intro view htimes hbuckets
  have hsync : view.channel.Synced :=
    SampleWindow.channel_synced steps indexed ratio scale offset
  refine ⟨?_, digitalBuckets_partition hsync hbuckets⟩
  have hordered := timeEnvelope_partition hsync htimes (@min_le_max _ _ minTime maxTime) hbuckets
  have hsame : view.timeEnvelope (min minTime maxTime) (max minTime maxTime) buckets =
      view.timeEnvelope minTime maxTime buckets := by
    have hrange := ordered_ordered minTime maxTime
    rw [ordered_eq minTime maxTime] at hrange
    unfold timeEnvelope
    rw [hrange, ordered_eq minTime maxTime]
  rw [← hsame]
  exact hordered

/-- The pulse in two buckets, its times given in reverse. -/
theorem buckets_partition_pulse :
    EnvelopesPartition pulseView (min 2 0) (max 2 0) 2 (pulseView.timeEnvelope 2 0 2) :=
  (buckets_partition [.slide 0 [⟨0, 0⟩, ⟨1, 1⟩, ⟨2, 0⟩] false] true 1 1 0 .scriptTime 0
    .offsetThenScale 2 0 2 pulseView_ascends (by decide)).1

end ProtoScope.Plot
