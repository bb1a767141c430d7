/-
The search for the nearest sample finds the best of those it looks at.

Both searches look at the samples from some positions before to some positions after the
one where the channel's times reach the queried time.  The distance in time grows on either
side of it, so the nearest sample in time is the one just before or the one just after, and
both are looked at.  A score that weighs in the value has no such shape: `findNearest` finds
the best within its reach of 32 positions, and a better sample may lie beyond.
-/
import ProtoScope.Library.BestOf
import ProtoScope.Proofs.Plot.EnvelopeCounts

namespace ProtoScope.Plot

open ProtoScope.Library

variable {K : Type}

/-! ### What is looked at -/

section Around

variable [LinearOrder K] {samples : List (WaveSample K)} {time : K}

/-- How many samples are before a time. -/
def earlierCount (samples : List (WaveSample K)) (time : K) : ℕ :=
  (samples.filter fun sample => decide (sample.time < time)).length

theorem SortedByTime.lowerBound_eq (h : SortedByTime samples) (time : K) :
    lowerBoundByTime samples time = earlierCount samples time := by
  have hle : lowerBoundByTime samples time ≤ samples.length := PartitionPoint.find_le (h.lower time)
  unfold earlierCount
  rw [← PartitionPoint.take_find (h.lower time), List.length_take]
  exact (Nat.min_eq_left hle).symm

theorem SortedByTime.earlier (h : SortedByTime samples) {i : ℕ} {sample : WaveSample K}
    (hi : samples[i]? = some sample) :
    (i < earlierCount samples time → sample.time < time) ∧
      (earlierCount samples time ≤ i → time ≤ sample.time) := by
  obtain ⟨hlen, rfl⟩ := List.getElem?_eq_some_iff.mp hi
  rw [← h.lowerBound_eq]
  constructor
  · intro hbelow
    exact of_decide_eq_true (PartitionPoint.before_of_lt_find (h.lower time) hbelow hlen)
  · intro habove
    exact not_lt.mp
      (of_decide_eq_false (PartitionPoint.not_before_of_find_le (h.lower time) habove hlen))

/-- The positions within reach of the queried time. -/
def WithinReach (samples : List (WaveSample K)) (time : K) (reach i : ℕ) : Prop :=
  earlierCount samples time ≤ i + reach ∧ i < earlierCount samples time + reach

theorem mem_samplesAround (h : SortedByTime samples) {reach i : ℕ} {sample : WaveSample K} :
    (sample, i) ∈ samplesAround samples time reach ↔
      samples[i]? = some sample ∧ WithinReach samples time reach i := by
  unfold samplesAround WithinReach
  rw [h.lowerBound_eq, List.mem_iff_getElem?]
  have hfirst : (if reach < earlierCount samples time then earlierCount samples time - reach else 0)
      = earlierCount samples time - reach := by
    split <;> omega
  dsimp only
  rw [hfirst]
  constructor
  · rintro ⟨k, hk⟩
    rw [List.getElem?_take] at hk
    split at hk
    · rw [List.getElem?_drop, List.getElem?_zipIdx, Option.map_eq_some_iff] at hk
      obtain ⟨s, hs, heq⟩ := hk
      obtain ⟨rfl, rfl⟩ := Prod.mk.injEq .. ▸ heq
      rw [Nat.zero_add]
      refine ⟨hs, ?_, ?_⟩ <;> omega
    · exact absurd hk (by simp)
  · rintro ⟨hsample, hlow, hhigh⟩
    obtain ⟨hlen, -⟩ := List.getElem?_eq_some_iff.mp hsample
    refine ⟨i - (earlierCount samples time - reach), ?_⟩
    have hposition : earlierCount samples time - reach + (i - (earlierCount samples time - reach))
        = i := by omega
    rw [List.getElem?_take, if_pos (by omega), List.getElem?_drop, hposition,
      List.getElem?_zipIdx, hsample, Nat.zero_add]
    rfl

end Around

variable [Field K] [LinearOrder K]

/-! ### The passes over the samples -/

section Passes

variable (buffer : DisplayBuffer K) (channel : DisplayChannel K) (channelIndex : ℕ)
  (time value maxTimeDistance maxValueDistance : K)

/-- The distance of a sample in time. -/
def timeDistance (sample : WaveSample K) : K := |sample.time - time|

/-- The distance of a sample's display value. -/
def valueDistance (sample : WaveSample K) : K := |buffer.display channel sample.value - value|

/-- The score of a sample: the squared distance from the queried point. -/
def nearestScore (sample : WaveSample K) : K :=
  timeDistance time sample * timeDistance time sample +
    valueDistance buffer channel value sample * valueDistance buffer channel value sample

/-- What a pass has found, with the readout of the sample. -/
def reported (best : WithTop K × Option (WaveSample K × ℕ)) :
    WithTop K × Option (CursorReadout K) :=
  (best.1, best.2.map fun entry => buffer.readout channel channelIndex entry.2 entry.1)

theorem compareNearest_eq (best : WithTop K × Option (WaveSample K × ℕ))
    (entry : WaveSample K × ℕ) :
    buffer.compareNearest channel channelIndex time value maxTimeDistance maxValueDistance
        (reported buffer channel channelIndex best) entry
      = reported buffer channel channelIndex
          (BestOf.keep
            (fun entry => decide (timeDistance time entry.1 ≤ maxTimeDistance ∧
              valueDistance buffer channel value entry.1 ≤ maxValueDistance))
            (fun entry => nearestScore buffer channel time value entry.1) best entry) := by
  unfold DisplayBuffer.compareNearest BestOf.keep
  by_cases hfar : maxTimeDistance < |entry.1.time - time| ∨
      maxValueDistance < |buffer.display channel entry.1.value - value|
  · have hout : ¬ (timeDistance time entry.1 ≤ maxTimeDistance ∧
        valueDistance buffer channel value entry.1 ≤ maxValueDistance) := by
      rw [not_and_or, not_le, not_le]
      exact hfar
    rw [if_pos hfar, if_neg fun h => hout (of_decide_eq_true h.1)]
  · have hin : timeDistance time entry.1 ≤ maxTimeDistance ∧
        valueDistance buffer channel value entry.1 ≤ maxValueDistance := by
      rw [not_or, not_lt, not_lt] at hfar
      exact hfar
    rw [if_neg hfar]
    by_cases hbetter : ((nearestScore buffer channel time value entry.1 : K) : WithTop K) < best.1
    · have hkept : decide (timeDistance time entry.1 ≤ maxTimeDistance ∧
          valueDistance buffer channel value entry.1 ≤ maxValueDistance) = true ∧
          ((nearestScore buffer channel time value entry.1 : K) : WithTop K) < best.1 :=
        ⟨decide_eq_true hin, hbetter⟩
      rw [if_pos hkept]
      exact if_pos hbetter
    · have hdropped : ¬ (decide (timeDistance time entry.1 ≤ maxTimeDistance ∧
          valueDistance buffer channel value entry.1 ≤ maxValueDistance) = true ∧
          ((nearestScore buffer channel time value entry.1 : K) : WithTop K) < best.1) :=
        fun h => hbetter h.2
      rw [if_neg hdropped]
      exact if_neg hbetter

theorem compareNearestByTime_eq (best : WithTop K × Option (WaveSample K × ℕ))
    (entry : WaveSample K × ℕ) :
    buffer.compareNearestByTime channel channelIndex time maxTimeDistance
        (reported buffer channel channelIndex best) entry
      = reported buffer channel channelIndex
          (BestOf.keep (fun entry => decide (timeDistance time entry.1 ≤ maxTimeDistance))
            (fun entry => timeDistance time entry.1) best entry) := by
  unfold DisplayBuffer.compareNearestByTime BestOf.keep
  by_cases hskip : maxTimeDistance < |entry.1.time - time| ∨
      best.1 ≤ ((|entry.1.time - time| : K) : WithTop K)
  · have hdropped : ¬ (decide (timeDistance time entry.1 ≤ maxTimeDistance) = true ∧
        ((timeDistance time entry.1 : K) : WithTop K) < best.1) := by
      rw [decide_eq_true_iff, not_and_or, not_le, not_lt]
      exact hskip
    rw [if_neg hdropped]
    exact if_pos hskip
  · have hkept : decide (timeDistance time entry.1 ≤ maxTimeDistance) = true ∧
        ((timeDistance time entry.1 : K) : WithTop K) < best.1 := by
      rw [not_or, not_lt, not_le] at hskip
      exact ⟨decide_eq_true hskip.1, hskip.2⟩
    rw [if_pos hkept]
    exact if_neg hskip

end Passes

/-! ### The answers -/

/-- A best sample of those a search is about: the readout is that of a candidate no other
candidate has a lower score than, and without a readout there is no candidate. -/
def IsBest (buffer : DisplayBuffer K) (channelIndex : ℕ)
    (candidate : DisplayChannel K → ℕ → WaveSample K → Prop)
    (score : DisplayChannel K → WaveSample K → K) : Option (CursorReadout K) → Prop
  | none => ∀ channel, buffer.channels[channelIndex]? = some channel →
      ∀ i sample, channel.samples[i]? = some sample → ¬ candidate channel i sample
  | some readout => ∃ channel sample, buffer.channels[channelIndex]? = some channel ∧
      channel.samples[readout.sampleIndex]? = some sample ∧
      candidate channel readout.sampleIndex sample ∧
      readout = buffer.readout channel channelIndex readout.sampleIndex sample ∧
      ∀ i other, channel.samples[i]? = some other → candidate channel i other →
        score channel sample ≤ score channel other

section Searches

variable {buffer : DisplayBuffer K} {channelIndex : ℕ}
  {score : DisplayChannel K → WaveSample K → K}

theorem isBest_of_missing {candidate : DisplayChannel K → ℕ → WaveSample K → Prop}
    (h : buffer.channels[channelIndex]? = none) :
    IsBest buffer channelIndex candidate score none := by
  intro channel hchannel
  rw [h] at hchannel
  exact absurd hchannel (by simp)

theorem isBest_of_empty {candidate : DisplayChannel K → ℕ → WaveSample K → Prop}
    {channel : DisplayChannel K} (h : buffer.channels[channelIndex]? = some channel)
    (hempty : channel.samples = []) : IsBest buffer channelIndex candidate score none := by
  intro other hother i sample hsample
  rw [h, Option.some.injEq] at hother
  rw [← hother, hempty] at hsample
  exact absurd hsample (by simp)

/-- A pass over the samples within reach finds a best one of them. -/
theorem pass_isBest {candidate : DisplayChannel K → WaveSample K → Prop}
    [∀ channel sample, Decidable (candidate channel sample)] {channel : DisplayChannel K} (h : buffer.channels[channelIndex]? = some channel)
    (hsorted : SortedByTime channel.samples) (time : K) (reach : ℕ)
    {step : WithTop K × Option (CursorReadout K) → WaveSample K × ℕ →
      WithTop K × Option (CursorReadout K)}
    (hstep : ∀ best entry, step (reported buffer channel channelIndex best) entry
      = reported buffer channel channelIndex
          (BestOf.keep (fun entry => decide (candidate channel entry.1))
            (fun entry => score channel entry.1) best entry)) :
    IsBest buffer channelIndex
      (fun channel i sample => WithinReach channel.samples time reach i ∧
        candidate channel sample)
      score ((samplesAround channel.samples time reach).foldl step (⊤, none)).2 := by
  have hpass : (samplesAround channel.samples time reach).foldl step
        (reported buffer channel channelIndex (⊤, none))
      = reported buffer channel channelIndex ((samplesAround channel.samples time reach).foldl
          (BestOf.keep (fun entry => decide (candidate channel entry.1))
            fun entry => score channel entry.1) (⊤, none)) :=
    List.foldl_hom (reported buffer channel channelIndex) hstep
  have hstart : reported buffer channel channelIndex (⊤, none) = (⊤, none) := rfl
  rw [← hstart, hpass]
  have hbest : BestOf.Best (fun entry : WaveSample K × ℕ => decide (candidate channel entry.1))
      (fun entry => score channel entry.1) (samplesAround channel.samples time reach) _ :=
    BestOf.best_foldl _
  generalize (samplesAround channel.samples time reach).foldl _ _ = best at hbest
  cases hbest with
  | none hnone =>
    intro other hother i sample hsample hin
    rw [h, Option.some.injEq] at hother
    subst hother
    exact hnone (sample, i) ((mem_samplesAround hsorted).mpr ⟨hsample, hin.1⟩)
      (decide_eq_true hin.2)
  | @some entry hmem hcandidate hleast =>
    obtain ⟨hsample, hreach⟩ := (mem_samplesAround hsorted).mp hmem
    refine ⟨channel, entry.1, h, hsample, ⟨hreach, of_decide_eq_true hcandidate⟩, rfl, fun i other hother hin => ?_⟩
    exact hleast (other, i) ((mem_samplesAround hsorted).mpr ⟨hother, hin.1⟩)
      (decide_eq_true hin.2)

/-- When every candidate has one within reach that scores no worse, a best one within reach is a
best one of all. -/
theorem IsBest.of_reach {samplesReach : DisplayChannel K → ℕ → Prop}
    {candidate : DisplayChannel K → WaveSample K → Prop} {answer : Option (CursorReadout K)}
    (h : IsBest buffer channelIndex
      (fun channel i sample => samplesReach channel i ∧ candidate channel sample) score answer)
    (hreach : ∀ channel, buffer.channels[channelIndex]? = some channel →
      ∀ (i : ℕ) (sample : WaveSample K), channel.samples[i]? = some sample →
        candidate channel sample → ∃ (j : ℕ) (nearer : WaveSample K), channel.samples[j]? = some nearer ∧ samplesReach channel j ∧
          candidate channel nearer ∧ score channel nearer ≤ score channel sample) :
    IsBest buffer channelIndex (fun channel _ sample => candidate channel sample) score answer := by
  cases answer with
  | none =>
    intro channel hchannel i sample hsample hcandidate
    obtain ⟨j, nearer, hnearer, hin, hcand, -⟩ := hreach channel hchannel i sample hsample hcandidate
    exact h channel hchannel j nearer hnearer ⟨hin, hcand⟩
  | some readout =>
    obtain ⟨channel, sample, hchannel, hsample, ⟨-, hcandidate⟩, hreadout, hleast⟩ := h
    refine ⟨channel, sample, hchannel, hsample, hcandidate, hreadout, fun i other hother hin => ?_⟩
    obtain ⟨j, nearer, hnearer, hnear, hcand, hle⟩ := hreach channel hchannel i other hother hin
    exact (hleast j nearer hnearer ⟨hnear, hcand⟩).trans hle

end Searches

namespace DisplayBuffer

variable (buffer : DisplayBuffer K) (channelIndex : ℕ)

theorem findNearest_isBest (hsorted : ∀ channel ∈ buffer.channels, SortedByTime channel.samples)
    (time value maxTimeDistance maxValueDistance : K) :
    IsBest buffer channelIndex
      (fun channel i sample => WithinReach channel.samples time 32 i ∧
        timeDistance time sample ≤ maxTimeDistance ∧
          valueDistance buffer channel value sample ≤ maxValueDistance)
      (fun channel => nearestScore buffer channel time value)
      (buffer.findNearest channelIndex time value maxTimeDistance maxValueDistance) := by
  unfold findNearest
  cases hchannel : buffer.channels[channelIndex]? with
  | none => exact isBest_of_missing hchannel
  | some channel =>
    dsimp only
    by_cases hempty : channel.samples = []
    · rw [if_pos (List.isEmpty_iff.mpr hempty)]
      exact isBest_of_empty hchannel hempty
    · rw [if_neg fun h => hempty (List.isEmpty_iff.mp h)]
      exact @pass_isBest K _ _ buffer channelIndex _
        (fun channel sample => timeDistance time sample ≤ maxTimeDistance ∧
          valueDistance buffer channel value sample ≤ maxValueDistance) _ channel hchannel
        (hsorted channel (List.mem_of_getElem? hchannel)) time 32 _
        (compareNearest_eq buffer channel channelIndex time value maxTimeDistance maxValueDistance)


end DisplayBuffer

variable [IsStrictOrderedRing K]

/-- Some sample next to the queried time is at least as near to it as any other. -/
theorem exists_nearer {samples : List (WaveSample K)} (hsorted : SortedByTime samples) (time : K)
    {reach : ℕ} (hpositive : 0 < reach) {i : ℕ} {sample : WaveSample K}
    (hsample : samples[i]? = some sample) :
    ∃ j nearer, samples[j]? = some nearer ∧ WithinReach samples time reach j ∧
      timeDistance time nearer ≤ timeDistance time sample := by
  obtain ⟨hlen, hget⟩ := List.getElem?_eq_some_iff.mp hsample
  have hmono : ∀ j k (hj : j < samples.length) (hk : k < samples.length), j ≤ k →
      samples[j].time ≤ samples[k].time := by
    intro j k hj hk hjk
    rcases Nat.lt_or_eq_of_le hjk with hlt | rfl
    · exact List.pairwise_iff_getElem.mp hsorted j k hj hk hlt
    · exact le_rfl
  unfold WithinReach timeDistance
  rcases Nat.lt_or_ge i (earlierCount samples time) with hbelow | habove
  · -- the last sample before the time
    have hcount : earlierCount samples time ≤ samples.length := List.length_filter_le _ _
    have hj : earlierCount samples time - 1 < samples.length := by omega
    have hlast := (@SortedByTime.earlier K _ samples time hsorted _ _ (List.getElem?_eq_getElem hj)).1 (by omega)
    have hbefore : sample.time ≤ samples[earlierCount samples time - 1].time := by
      rw [← hget]
      exact hmono _ _ hlen hj (by omega)
    refine ⟨_, _, List.getElem?_eq_getElem hj, by omega, ?_⟩
    rw [abs_of_neg (sub_neg.mpr hlast), abs_of_neg (sub_neg.mpr (hbefore.trans_lt hlast))]
    linarith
  · -- the first sample from the time on
    have hj : earlierCount samples time < samples.length := by omega
    have hfirst := (hsorted.earlier (List.getElem?_eq_getElem hj)).2 le_rfl
    have hafter : samples[earlierCount samples time].time ≤ sample.time := by
      rw [← hget]
      exact hmono _ _ hj hlen habove
    refine ⟨_, _, List.getElem?_eq_getElem hj, by omega, ?_⟩
    rw [abs_of_nonneg (sub_nonneg.mpr hfirst),
      abs_of_nonneg (sub_nonneg.mpr (hfirst.trans hafter))]
    linarith

namespace DisplayBuffer

theorem findNearestByTime_isBest (buffer : DisplayBuffer K) (channelIndex : ℕ)
    (hsorted : ∀ channel ∈ buffer.channels, SortedByTime channel.samples)
    (time maxTimeDistance : K) :
    IsBest buffer channelIndex
      (fun _ _ sample => timeDistance time sample ≤ maxTimeDistance)
      (fun _ => timeDistance time)
      (buffer.findNearestByTime channelIndex time maxTimeDistance) := by
  refine @IsBest.of_reach K _ _ buffer channelIndex _
    (fun channel i => WithinReach channel.samples time 16 i)
    (fun _ sample => timeDistance time sample ≤ maxTimeDistance) _ ?_ ?_
  · unfold findNearestByTime
    cases hchannel : buffer.channels[channelIndex]? with
    | none => exact isBest_of_missing hchannel
    | some channel =>
      dsimp only
      by_cases hempty : channel.samples = []
      · rw [if_pos (List.isEmpty_iff.mpr hempty)]
        exact isBest_of_empty hchannel hempty
      · rw [if_neg fun h => hempty (List.isEmpty_iff.mp h)]
        exact @pass_isBest K _ _ buffer channelIndex _
          (fun _ sample => timeDistance time sample ≤ maxTimeDistance) _ channel hchannel
          (hsorted channel (List.mem_of_getElem? hchannel)) time 16 _
          (compareNearestByTime_eq buffer channel channelIndex time maxTimeDistance)
  · intro channel hchannel i sample hsample hcandidate
    obtain ⟨j, nearer, hnearer, hin, hle⟩ :=
      exists_nearer (hsorted channel (List.mem_of_getElem? hchannel)) time
        (by decide : 0 < 16) hsample
    exact ⟨j, nearer, hnearer, hin, hle.trans hcandidate, hle⟩

end DisplayBuffer

end ProtoScope.Plot
