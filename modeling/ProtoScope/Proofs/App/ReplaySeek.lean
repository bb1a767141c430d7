/-
What a seek does to the modes of playback.

While a seek runs the pacing is fast and the replay plays; the modes of before are kept aside
and come back at its bound.  `modePacing` and `modePlaying` are the ones that will be in
force then.  Pumping never changes them, and neither does a seek that keeps aside what it is
to restore and has a bound to restore it at.  That leaves out a seek to the start, which has
no bound, and one during another seek, which keeps aside the modes of the other.
-/
import ProtoScope.Proofs.App.ReplayFrames

namespace ProtoScope.App.RawCaptureReplay

open ProtoScope.Plot

/-- The end of the timeline is reached. -/
def ended (s : RawCaptureReplay) : Prop := s.events.length ≤ s.eventIndex

def modePacing (s : RawCaptureReplay) : OfflineReplayPacing :=
  if 0 < s.targetEventIndex then s.pacingAfterSeek else s.pacing

def modePlaying (s : RawCaptureReplay) : Bool :=
  if 0 < s.targetEventIndex then s.resumeAfterSeek else s.playing

/-- No seek runs, and the last one has not failed. -/
def SeekFinished (s : RawCaptureReplay) : Prop :=
  (s.targetEventIndex = 0 ∨ s.phase = .completed) ∧ s.phase ≠ .preparing ∧ s.phase ≠ .failed

/-- The steps of a run of seeks. -/
def IsSeekStep : ReplayStep → Prop
  | .worker _ | .appends _ _ | .pump _ | .seek _ _ => True
  | .play _ | .pause | .step _ => False

/-- A seek whose modes come back: one that replaces no running seek with other modes, either
has a bound before the end or leaves the modes as they are, and does not follow a failure that
has ended the `playing` from before the first seek. -/
def SeekKeepsModes (playing : Bool) (s : RawCaptureReplay) : ReplayStep → Prop
  | .worker _ | .appends _ _ | .pump _ => True
  | .play _ | .pause | .step _ => False
  | .seek eventIndex _ =>
    (s.phase = .failed → s.targetEventIndex = 0 → s.playing = playing) ∧
    (0 < s.targetEventIndex → s.phase ≠ .completed →
      s.pacingAfterSeek = s.pacing ∧ s.resumeAfterSeek = s.playing) ∧
    (min eventIndex s.events.length = 0 → s.pacing = .fastBatchParse ∧ s.playing = false) ∧
    (min eventIndex s.events.length = s.events.length → s.pacing = .fastBatchParse)

def SeeksKeepModes (playing : Bool) : RawCaptureReplay → List ReplayStep → Prop
  | _, [] => True
  | s, step :: steps =>
    s.SeekKeepsModes playing step ∧ SeeksKeepModes playing (s.replayStep step) steps

/-- Some state of the run is at the end of the timeline. -/
def ReachesEnd : RawCaptureReplay → List ReplayStep → Prop
  | s, [] => s.ended
  | s, step :: steps => s.ended ∨ ReachesEnd (s.replayStep step) steps

/-! ### The bounds of a running seek -/

structure SeekBounds (s : RawCaptureReplay) : Prop where
  pacing : 0 < s.targetEventIndex → s.pacing = .fastBatchParse
  position : 0 < s.targetEventIndex → s.eventIndex ≤ s.targetEventIndex
  bound : s.targetEventIndex ≤ s.events.length
  atEnd : 0 < s.targetEventIndex → s.targetEventIndex = s.events.length →
    s.pacingAfterSeek = .fastBatchParse
  completed : 0 < s.targetEventIndex → s.phase = .completed → s.ended

/-- The replay has failed while no seek ran. -/
def failedIdle (s : RawCaptureReplay) : Prop := s.phase = .failed ∧ s.targetEventIndex = 0

/-- One step of pumping: the modes stay, unless the end is reached or the replay fails. -/
structure KeepsModes (s t : RawCaptureReplay) : Prop where
  bounds : t.SeekBounds
  pacing : t.modePacing = s.modePacing
  playing : t.failedIdle ∨ t.ended ∨ t.modePlaying = s.modePlaying
  failed : s.failedIdle → t.failedIdle

variable {s t : RawCaptureReplay} {playing : Bool} {pacing : OfflineReplayPacing}

theorem SameModes.modes (h : SameModes s t) :
    t.modePacing = s.modePacing ∧ t.modePlaying = s.modePlaying := by
  unfold modePacing modePlaying
  rw [h.targetEventIndex, h.pacingAfterSeek, h.pacing, h.resumeAfterSeek, h.playing]
  exact ⟨rfl, rfl⟩

theorem SeekBounds.of_same (h : s.SeekBounds) (hsame : SameModes s t)
    (hindex : t.eventIndex = s.eventIndex) : t.SeekBounds where
  pacing := by
    rw [hsame.targetEventIndex, hsame.pacing]
    exact h.pacing
  position := by
    rw [hsame.targetEventIndex, hindex]
    exact h.position
  bound := by
    rw [hsame.targetEventIndex, hsame.events]
    exact h.bound
  atEnd := by
    rw [hsame.targetEventIndex, hsame.events, hsame.pacingAfterSeek]
    exact h.atEnd
  completed := by
    unfold ended
    rw [hsame.targetEventIndex, hsame.phase, hsame.events, hindex]
    exact h.completed

theorem KeepsModes.of_same (h : s.SeekBounds) (hsame : SameModes s t)
    (hindex : t.eventIndex = s.eventIndex) : KeepsModes s t where
  bounds := h.of_same hsame hindex
  pacing := hsame.modes.1
  playing := .inr (.inr hsame.modes.2)
  failed := fun hphase => ⟨hsame.phase.trans hphase.1, hsame.targetEventIndex.trans hphase.2⟩

theorem KeepsModes.refl (h : s.SeekBounds) : KeepsModes s s :=
  KeepsModes.of_same h (SameModes.refl s) rfl

/-! ### Pumping -/

/-- A failure stops the replay, but not what a running seek is to restore. -/
theorem failed_modePlaying (s : RawCaptureReplay) :
    s.fail.failedIdle ∨ s.fail.modePlaying = s.modePlaying := by
  by_cases hpos : 0 < s.targetEventIndex
  · exact .inr ((if_pos hpos).trans (if_pos hpos).symm)
  · exact .inl ⟨rfl, Nat.eq_zero_of_not_pos hpos⟩

theorem SeekBounds.fail (h : s.SeekBounds) : s.fail.SeekBounds :=
  ⟨h.pacing, h.position, h.bound, h.atEnd, fun _ heq => nomatch heq⟩

theorem pumpPreparation_keeps (h : s.SeekBounds) (hphase : s.phase = .preparing) :
    KeepsModes s s.pumpPreparation := by
  have hnotFailed : ¬ s.failedIdle := by
    rw [failedIdle, hphase]
    exact fun heq => nomatch heq.1
  unfold pumpPreparation
  split
  · exact KeepsModes.refl h
  · rename_i worker hworker
    split
    · unfold finishPreparation
      split
      · refine ⟨⟨h.pacing, h.position, h.bound, h.atEnd, ?_⟩, rfl, .inr (.inr ?_),
          fun heq => (hnotFailed heq).elim⟩
        · intro _ heq
          dsimp only at heq
          split at heq
          · cases heq
          · cases heq
        · unfold modePlaying
          dsimp only
          split
          · rfl
          · rename_i hzero
            rw [decide_eq_false hzero, Bool.false_or]
      · exact ⟨⟨h.pacing, h.position, h.bound, h.atEnd, fun _ heq => nomatch heq⟩, rfl,
          (failed_modePlaying s).imp id .inr, fun heq => (hnotFailed heq).elim⟩
    · exact KeepsModes.of_same h ⟨rfl, rfl, rfl, rfl, rfl, rfl, rfl, rfl, rfl⟩ rfl

theorem drainFlushed_keeps (h : s.SeekBounds) (choice : DrainChoice) (hphase : s.phase = .draining)
    : KeepsModes s (drainFlushed choice s) := by
  have hnotFailed : ¬ s.failedIdle := by
    rw [failedIdle, hphase]
    exact fun heq => nomatch heq.1
  unfold drainFlushed
  split
  · exact ⟨h.fail, rfl, (failed_modePlaying s).imp id .inr, fun heq => (hnotFailed heq).elim⟩
  split
  · exact KeepsModes.refl h
  split
  · exact KeepsModes.refl h
  unfold finishDraining
  split
  · rename_i hend
    exact ⟨⟨h.pacing, h.position, h.bound, h.atEnd, fun _ _ => hend⟩, rfl, .inr (.inl hend),
      fun heq => (hnotFailed heq).elim⟩
  · refine ⟨⟨h.pacing, h.position, h.bound, h.atEnd, ?_⟩, rfl, .inr (.inr rfl),
      fun heq => (hnotFailed heq).elim⟩
    intro _ heq
    dsimp only at heq
    split at heq
    · cases heq
    · cases heq

theorem drainRawCaptureReplay_keeps (h : s.SeekBounds) (choice : DrainChoice)
    (hphase : s.phase = .draining) : KeepsModes s (drainRawCaptureReplay choice s) := by
  unfold drainRawCaptureReplay
  split
  · exact KeepsModes.refl h
  · exact ⟨⟨h.pacing, h.position, h.bound, h.atEnd, fun _ heq => nomatch heq⟩, rfl,
      .inr (.inr rfl), fun heq => ⟨rfl, heq.2⟩⟩
  · let opened : RawCaptureReplay := { s with profileFence := none }
    have hflush := flush_same choice.flush opened
    have hopened : SameModes s opened := ⟨rfl, rfl, rfl, rfl, rfl, rfl, rfl, rfl, rfl⟩
    have hsame : SameModes s (opened.flushOfflineScriptOutputs choice.flush) :=
      hopened.trans hflush.toSameModes
    have hdrained := drainFlushed_keeps (h.of_same hsame hflush.eventIndex) choice
      (hsame.phase.trans hphase)
    refine ⟨hdrained.bounds, hdrained.pacing.trans hsame.modes.1, ?_, ?_⟩
    · rw [← hsame.modes.2]
      exact hdrained.playing
    · intro heq
      rw [failedIdle, hphase] at heq
      cases heq.1

theorem drainRawCaptureReplay_ended (choice : DrainChoice) (h : s.ended) :
    (drainRawCaptureReplay choice s).ended := by
  unfold drainRawCaptureReplay
  split
  · exact h
  · exact h
  · let opened : RawCaptureReplay := { s with profileFence := none }
    have hflush := flush_same choice.flush opened
    have hended : (opened.flushOfflineScriptOutputs choice.flush).ended := by
      unfold ended
      rw [hflush.events, hflush.eventIndex]
      exact h
    unfold drainFlushed
    split
    · exact hended
    split
    · exact hended
    split
    · exact hended
    unfold finishDraining
    split
    · exact hended
    · exact hended

/-- What a round leaves: a failure, or the same modes. -/
structure RoundKeeps (s t : RawCaptureReplay) : Prop where
  bounds : t.SeekBounds
  pacing : t.modePacing = s.modePacing
  playing : t.modePlaying = s.modePlaying
  events : t.events = s.events

theorem RoundKeeps.of_same (h : s.SeekBounds) (hsame : SameModes s t)
    (hindex : t.eventIndex = s.eventIndex) : RoundKeeps s t :=
  ⟨h.of_same hsame hindex, hsame.modes.1, hsame.modes.2, hsame.events⟩

theorem RoundKeeps.trans {u : RawCaptureReplay} (h : RoundKeeps s t) (h' : RoundKeeps t u) :
    RoundKeeps s u :=
  ⟨h'.bounds, h'.pacing.trans h.pacing, h'.playing.trans h.playing, h'.events.trans h.events⟩

/-- The state of a result, with what holds of it. -/
def RoundResult.Keeps (s : RawCaptureReplay) : RoundResult → Prop
  | .stop t => RoundKeeps s t ∧ t.phase ≠ .failed
  | .next t => RoundKeeps s t ∧ t.phase ≠ .failed
  | .fail t =>
    t.SeekBounds ∧ t.modePacing = s.modePacing ∧ (t.failedIdle ∨ t.modePlaying = s.modePlaying)

theorem submitRound_keeps (h : s.SeekBounds) (hphase : s.phase = .replaying)
    (htarget : ¬ s.atTarget) (choice : EventChoice) :
    RoundResult.Keeps s (s.submitRound choice) := by
  obtain ⟨hsame, hindex⟩ := replayRawCaptureEventAt_same choice s
  have hbounds : (s.replayRawCaptureEventAt choice s.eventIndex).1.SeekBounds := by
    obtain heq | ⟨-, heq⟩ := hindex
    · exact h.of_same hsame heq
    · refine ⟨?_, ?_, ?_, ?_, ?_⟩
      · rw [hsame.targetEventIndex, hsame.pacing]
        exact h.pacing
      · rw [hsame.targetEventIndex, heq]
        intro hpos
        unfold atTarget at htarget
        omega
      · rw [hsame.targetEventIndex, hsame.events]
        exact h.bound
      · rw [hsame.targetEventIndex, hsame.events, hsame.pacingAfterSeek]
        exact h.atEnd
      · rw [hsame.phase, hphase]
        exact fun _ heq => nomatch heq
  have hkeeps : RoundKeeps s (s.replayRawCaptureEventAt choice s.eventIndex).1 :=
    ⟨hbounds, hsame.modes.1, hsame.modes.2, hsame.events⟩
  have hrunning : (s.replayRawCaptureEventAt choice s.eventIndex).1.phase ≠ .failed := by
    rw [hsame.phase, hphase]
    exact fun heq => nomatch heq
  unfold submitRound
  split
  · refine ⟨hbounds.fail, hsame.modes.1, ?_⟩
    rw [← hsame.modes.2]
    exact failed_modePlaying _
  split
  · exact ⟨hkeeps, hrunning⟩
  · exact ⟨hkeeps, hrunning⟩

theorem finishSeek_keeps (htarget : s.atTarget) : RoundKeeps s s.finishSeek := by
  have hpos : 0 < s.targetEventIndex := htarget.1
  refine ⟨⟨fun h => ?_, fun h => ?_, Nat.zero_le _, fun h => ?_, fun h => ?_⟩, ?_, ?_, rfl⟩
  · exact absurd h (lt_irrefl 0)
  · exact absurd h (lt_irrefl 0)
  · exact absurd h (lt_irrefl 0)
  · exact absurd h (lt_irrefl 0)
  · exact (if_neg (lt_irrefl 0)).trans (if_pos hpos).symm
  · exact (if_neg (lt_irrefl 0)).trans (if_pos hpos).symm

theorem pumpRound_keeps (h : s.SeekBounds) (hphase : s.phase = .replaying) (round : Round)
    (events : ℕ) (event : RawCaptureEvent) :
    RoundResult.Keeps s (s.pumpRound round events event) := by
  have hrunning : s.phase ≠ .failed := by
    rw [hphase]
    exact fun heq => nomatch heq
  have hself : RoundKeeps s s := RoundKeeps.of_same h (SameModes.refl s) rfl
  unfold pumpRound
  split
  · exact ⟨hself, hrunning⟩
  · exact ⟨⟨h.pacing, h.position, h.bound, h.atEnd, fun _ heq => nomatch heq⟩, rfl,
      failed_modePlaying _⟩
  · let opened : RawCaptureReplay := { s with profileFence := none }
    have hopened : SameModes s opened := ⟨rfl, rfl, rfl, rfl, rfl, rfl, rfl, rfl, rfl⟩
    have hbounds : opened.SeekBounds := h.of_same hopened rfl
    have hkeeps : RoundKeeps s opened := RoundKeeps.of_same h hopened rfl
    show RoundResult.Keeps s (opened.openRound round events event)
    unfold openRound
    split
    · rename_i htarget
      split
      · exact ⟨hkeeps, hrunning⟩
      · exact ⟨hkeeps.trans (finishSeek_keeps htarget), fun heq => nomatch heq⟩
    · rename_i htarget
      split
      · have hround := submitRound_keeps hbounds hphase htarget round.event
        revert hround
        generalize opened.submitRound round.event = result
        intro hround
        cases result with
        | stop t => exact ⟨hkeeps.trans hround.1, hround.2⟩
        | next t => exact ⟨hkeeps.trans hround.1, hround.2⟩
        | fail t => exact ⟨hround.1, hround.2.1, hround.2.2⟩
      · exact ⟨hkeeps, hrunning⟩

theorem submitRound_next_phase {choice : EventChoice} (h : s.submitRound choice = .next t) :
    t.phase = s.phase := by
  unfold submitRound at h
  split at h
  · cases h
  split at h
  · cases h
  · cases h
    exact (replayRawCaptureEventAt_same choice s).1.phase

theorem pumpRound_next_phase {round : Round} {events : ℕ} {event : RawCaptureEvent}
    (h : s.pumpRound round events event = .next t) : t.phase = s.phase := by
  unfold pumpRound at h
  split at h
  · cases h
  · cases h
  · unfold openRound at h
    split at h
    · split at h
      · cases h
      · cases h
    · split at h
      · exact (submitRound_next_phase h).trans rfl
      · cases h

/-- The loop of a pump: the same modes, or a failure. -/
theorem pumpLoop_keeps (rounds : List Round) (events bytes : ℕ) (h : s.SeekBounds)
    (hphase : s.phase = .replaying) :
    ((pumpLoop rounds events bytes s).2 = false ∧ RoundKeeps s (pumpLoop rounds events bytes s).1 ∧
        (pumpLoop rounds events bytes s).1.phase ≠ .failed) ∨
      ((pumpLoop rounds events bytes s).2 = true ∧ (pumpLoop rounds events bytes s).1.SeekBounds ∧
        (pumpLoop rounds events bytes s).1.modePacing = s.modePacing ∧
          ((pumpLoop rounds events bytes s).1.failedIdle ∨
            (pumpLoop rounds events bytes s).1.modePlaying = s.modePlaying)) := by
  have hrunning : s.phase ≠ .failed := by
    rw [hphase]
    exact fun heq => nomatch heq
  have hself : RoundKeeps s s := RoundKeeps.of_same h (SameModes.refl s) rfl
  induction rounds generalizing events bytes s with
  | nil => exact .inl ⟨rfl, hself, hrunning⟩
  | cons round rounds ih =>
    unfold pumpLoop
    split
    · exact .inl ⟨rfl, hself, hrunning⟩
    · rename_i event hevent
      split
      · exact .inl ⟨rfl, hself, hrunning⟩
      · have hworker := workerRun_same round.moves s
        have hmoved := RoundKeeps.of_same h hworker.toSameModes hworker.eventIndex
        have hmovedPhase := hworker.phase.trans hphase
        have hround := pumpRound_keeps hmoved.bounds hmovedPhase round events event
        split
        · rename_i t hresult
          rw [hresult] at hround
          exact .inl ⟨rfl, hmoved.trans hround.1, hround.2⟩
        · rename_i t hresult
          rw [hresult] at hround
          exact .inr ⟨rfl, hround.1, hround.2.1.trans hmoved.pacing,
            hround.2.2.imp id fun heq => heq.trans hmoved.playing⟩
        · rename_i t hresult
          rw [hresult] at hround
          have hkeeps := hmoved.trans hround.1
          have htPhase := (pumpRound_next_phase hresult).trans hmovedPhase
          obtain ⟨hok, hrest, hnot⟩ | ⟨hfail, hrest, hpacing, hphase'⟩ :=
            ih (events + 1) (bytes + event.bytes.length) hkeeps.bounds htPhase hround.2
              (RoundKeeps.of_same hkeeps.bounds (SameModes.refl t) rfl)
          · exact .inl ⟨hok, hkeeps.trans hrest, hnot⟩
          · exact .inr ⟨hfail, hrest, hpacing.trans hkeeps.pacing,
              hphase'.imp id fun heq => heq.trans hkeeps.playing⟩

theorem afterLoop_keeps (choice : DrainChoice) {result : RawCaptureReplay × Bool}
    (hnot : s.phase ≠ .failed)
    (h : (result.2 = false ∧ RoundKeeps s result.1 ∧ result.1.phase ≠ .failed) ∨ (result.2 = true ∧ result.1.SeekBounds ∧ result.1.modePacing = s.modePacing ∧ (result.1.failedIdle ∨ result.1.modePlaying = s.modePlaying)))
    : KeepsModes s (afterLoop choice result) := by
  unfold afterLoop
  obtain ⟨hok, hkeeps, -⟩ | ⟨hfail, hbounds, hpacing, hplaying⟩ := h
  · split
    · rename_i hend
      let drained : RawCaptureReplay := { result.1 with playing := false, phase := .draining }
      have hbounds : drained.SeekBounds :=
        ⟨hkeeps.bounds.pacing, hkeeps.bounds.position, hkeeps.bounds.bound, hkeeps.bounds.atEnd,
          (fun _ heq => nomatch heq)⟩
      have hdrain := drainRawCaptureReplay_keeps hbounds choice rfl
      have hended := drainRawCaptureReplay_ended choice (s := drained) hend.2
      exact ⟨hdrain.bounds, hdrain.pacing.trans hkeeps.pacing, .inr (.inl hended),
        fun heq => absurd heq.1 hnot⟩
    · exact ⟨hkeeps.bounds, hkeeps.pacing, .inr (.inr hkeeps.playing),
        fun heq => absurd heq.1 hnot⟩
  · rw [if_neg (by rw [hfail]; exact fun hand => nomatch hand.1)]
    exact ⟨hbounds, hpacing, hplaying.imp id .inr, fun heq => absurd heq.1 hnot⟩

/-- **Pumping keeps the modes**, unless the end is reached or the replay fails. -/
theorem pumpRawCaptureReplay_keeps (h : s.SeekBounds) (choice : PumpChoice) :
    KeepsModes s (s.pumpRawCaptureReplay choice) := by
  unfold pumpRawCaptureReplay
  split
  · exact KeepsModes.refl h
  split
  · rename_i hphase
    exact pumpPreparation_keeps h hphase
  split
  · rename_i hphase
    exact drainRawCaptureReplay_keeps h choice.drain hphase
  obtain ⟨hsame, hindex⟩ := pumpOutputs_same choice.flush s
  have hout := KeepsModes.of_same h hsame hindex
  unfold pumpPlaying
  split
  · exact hout
  · rename_i hplaying
    rw [not_or, not_or, hsame.phase] at hplaying
    let running : RawCaptureReplay := { s.pumpOutputs choice.flush with phase := .replaying }
    have hbounds : running.SeekBounds :=
      ⟨hout.bounds.pacing, hout.bounds.position, hout.bounds.bound, hout.bounds.atEnd,
        (fun _ heq => nomatch heq)⟩
    have hloop := pumpLoop_keeps choice.rounds 0 0 hbounds rfl
    have hafter := afterLoop_keeps choice.drain (s := running) (fun heq => nomatch heq) hloop
    refine ⟨hafter.bounds, hafter.pacing.trans hout.pacing, ?_,
      fun heq => absurd heq.1 hplaying.2.1⟩
    rw [← hsame.modes.2]
    exact hafter.playing

/-! ### Seeking -/

/-- The modes in force are the ones that come back; at the end only the pacing is. -/
theorem SeekBounds.current (h : s.SeekBounds)
    (hsaved : 0 < s.targetEventIndex → s.phase ≠ .completed → s.pacingAfterSeek = s.pacing ∧ s.resumeAfterSeek = s.playing)
    : s.modePacing = s.pacing ∧ (s.ended ∨ s.modePlaying = s.playing) := by
  unfold modePacing modePlaying
  by_cases hpos : 0 < s.targetEventIndex
  · rw [if_pos hpos, if_pos hpos]
    by_cases hphase : s.phase = .completed
    · have hended : s.events.length ≤ s.eventIndex := h.completed hpos hphase
      have hbound : s.targetEventIndex = s.events.length :=
        le_antisymm h.bound (hended.trans (h.position hpos))
      exact ⟨(h.atEnd hpos hbound).trans (h.pacing hpos).symm, .inl hended⟩
    · obtain ⟨hpacing, hplaying⟩ := hsaved hpos hphase
      exact ⟨hpacing, .inr hplaying⟩
  · rw [if_neg hpos, if_neg hpos]
    exact ⟨rfl, .inr rfl⟩

/-- The fields of a seek that has begun. -/
structure SeekBegun (target : ℕ) (s t : RawCaptureReplay) : Prop where
  events : t.events = s.events
  eventIndex : t.eventIndex = 0
  targetEventIndex : t.targetEventIndex = min target s.events.length
  resumeAfterSeek : t.resumeAfterSeek = s.playing
  pacingAfterSeek : t.pacingAfterSeek = s.pacing
  pacing : t.pacing = .fastBatchParse
  playing : t.playing = decide (0 < min target s.events.length)
  phase : t.phase ≠ .completed

theorem seekRawCaptureReplay_begun (eventIndex : ℕ) (start : PreparationStart) (h : s.loaded = true)
    : SeekBegun eventIndex s (s.seekRawCaptureReplay eventIndex start) := by
  unfold seekRawCaptureReplay
  rw [if_neg (by rw [h]; exact Bool.noConfusion)]
  split
  · refine ⟨rfl, rfl, rfl, rfl, rfl, rfl, rfl, ?_⟩
    unfold prepareRawCaptureBrowse
    dsimp only
    split
    · exact fun heq => nomatch heq
    · exact fun heq => nomatch heq
  · cases start with
    | started => exact ⟨rfl, rfl, rfl, rfl, rfl, rfl, rfl, fun heq => nomatch heq⟩
    | refused workerLeft => exact ⟨rfl, rfl, rfl, rfl, rfl, rfl, rfl, fun heq => nomatch heq⟩

theorem seek_bounds (h : s.SeekBounds) {eventIndex : ℕ} {start : PreparationStart}
    (hkeeps : s.SeekKeepsModes playing (.seek eventIndex start)) :
    (s.seekRawCaptureReplay eventIndex start).SeekBounds := by
  obtain ⟨-, -, -, hend⟩ := hkeeps
  by_cases hloaded : s.loaded = true
  · have hbegun := seekRawCaptureReplay_begun eventIndex start hloaded
    refine ⟨fun _ => hbegun.pacing, fun _ => ?_, ?_, fun _ hbound => ?_, fun _ heq => ?_⟩
    · rw [hbegun.eventIndex]
      exact Nat.zero_le _
    · rw [hbegun.targetEventIndex, hbegun.events]
      exact min_le_right _ _
    · rw [hbegun.targetEventIndex, hbegun.events] at hbound
      exact hbegun.pacingAfterSeek.trans (hend hbound)
    · exact absurd heq hbegun.phase
  · unfold seekRawCaptureReplay
    rw [if_pos (Bool.eq_false_iff.mpr hloaded)]
    exact h

theorem seek_modes (h : s.SeekBounds) {eventIndex : ℕ} {start : PreparationStart}
    (hkeeps : s.SeekKeepsModes playing (.seek eventIndex start)) :
    (s.seekRawCaptureReplay eventIndex start).modePacing = s.modePacing ∧
      (s.ended ∨ (s.seekRawCaptureReplay eventIndex start).modePlaying = s.modePlaying) := by
  obtain ⟨-, hsaved, hzero, -⟩ := hkeeps
  by_cases hloaded : s.loaded = true
  · have hbegun := seekRawCaptureReplay_begun eventIndex start hloaded
    obtain ⟨hpacing, hplaying⟩ := h.current hsaved
    have hmodes : (s.seekRawCaptureReplay eventIndex start).modePacing = s.pacing ∧
        (s.seekRawCaptureReplay eventIndex start).modePlaying = s.playing := by
      unfold modePacing modePlaying
      rw [hbegun.targetEventIndex, hbegun.pacingAfterSeek, hbegun.resumeAfterSeek, hbegun.pacing,
        hbegun.playing]
      by_cases hpos : 0 < min eventIndex s.events.length
      · rw [if_pos hpos, if_pos hpos]
        exact ⟨rfl, rfl⟩
      · obtain ⟨hfast, hpaused⟩ := hzero (Nat.eq_zero_of_not_pos hpos)
        rw [if_neg hpos, if_neg hpos, hfast, hpaused]
        exact ⟨rfl, decide_eq_false hpos⟩
    refine ⟨hmodes.1.trans hpacing.symm, hplaying.imp id fun heq => ?_⟩
    exact hmodes.2.trans heq.symm
  · unfold seekRawCaptureReplay
    rw [if_pos (Bool.eq_false_iff.mpr hloaded)]
    exact ⟨rfl, .inr rfl⟩

/-! ### Runs of seeks -/

/-- The modes `pacing` and `playing` will be in force when the seek that runs, if any, is done,
unless the end was reached or the replay has failed. -/
structure SeekRun (pacing : OfflineReplayPacing) (playing : Bool) (reached : Prop)
    (s : RawCaptureReplay) : Prop where
  bounds : s.SeekBounds
  pacing : s.modePacing = pacing
  playing : s.failedIdle ∨ reached ∨ s.ended ∨ s.modePlaying = playing

theorem SeekRun.mono {reached reached' : Prop} (h : SeekRun pacing playing reached s)
    (himp : reached → reached') :
    SeekRun pacing playing reached' s where
  bounds := h.bounds
  pacing := h.pacing
  playing := h.playing.imp id fun hplaying => hplaying.imp himp id

theorem SeekRun.of_keeps {reached : Prop} (h : SeekRun pacing playing reached s)
    (hkeeps : KeepsModes s t) : SeekRun pacing playing (reached ∨ s.ended) t := by
  refine ⟨hkeeps.bounds, hkeeps.pacing.trans h.pacing, ?_⟩
  obtain hfailed | hplaying := h.playing
  · exact .inl (hkeeps.failed hfailed)
  obtain hfailed | hended | hmode := hkeeps.playing
  · exact .inl hfailed
  · exact .inr (.inr (.inl hended))
  · obtain hreached | hended | heq := hplaying
    · exact .inr (.inl (.inl hreached))
    · exact .inr (.inl (.inr hended))
    · exact .inr (.inr (.inr (hmode.trans heq)))

/-- One step of a run of seeks that keep the modes. -/
theorem SeekRun.step {reached : Prop} (h : SeekRun pacing playing reached s) {step : ReplayStep}
    (hstep : s.SeekKeepsModes playing step) :
    SeekRun pacing playing (reached ∨ s.ended) (s.replayStep step) := by
  cases step with
  | worker move =>
    have hsame := workerStep_same s move
    exact h.of_keeps (KeepsModes.of_same h.bounds hsame.toSameModes hsame.eventIndex)
  | appends kept added =>
    exact h.of_keeps
      (KeepsModes.of_same h.bounds ⟨rfl, rfl, rfl, rfl, rfl, rfl, rfl, rfl, rfl⟩ rfl)
  | pump choice => exact h.of_keeps (pumpRawCaptureReplay_keeps h.bounds choice)
  | play start => exact hstep.elim
  | pause => exact hstep.elim
  | step choice => exact hstep.elim
  | seek eventIndex start =>
    obtain ⟨hpacing, hplaying⟩ := seek_modes h.bounds hstep
    refine ⟨seek_bounds h.bounds hstep, hpacing.trans h.pacing, .inr ?_⟩
    obtain hended | hmode := hplaying
    · exact .inl (.inr hended)
    obtain ⟨hfailed, hidle⟩ | hreached | hended | heq := h.playing
    · have hnone : ¬ 0 < s.targetEventIndex := fun hpos => Nat.ne_of_gt hpos hidle
      exact .inr (.inr (hmode.trans ((if_neg hnone).trans (hstep.1 hfailed hidle))))
    · exact .inl (.inl hreached)
    · exact .inl (.inr hended)
    · exact .inr (.inr (hmode.trans heq))

theorem SeekRun.run (steps : List ReplayStep) :
    ∀ {s : RawCaptureReplay} {reached : Prop}, SeekRun pacing playing reached s →
      SeeksKeepModes playing s steps →
        SeekRun pacing playing (reached ∨ ReachesEnd s steps) (s.run steps) := by
  induction steps with
  | nil =>
    intro s reached h _
    exact h.mono .inl
  | cons step steps ih =>
    intro s reached h hsteps
    have hnext := ih (h.step hsteps.1) hsteps.2
    exact hnext.mono fun hor => or_assoc.mp hor

theorem reachesEnd_last (steps : List ReplayStep) (h : (s.run steps).ended) :
    ReachesEnd s steps := by
  induction steps generalizing s with
  | nil => exact h
  | cons step steps ih => exact .inr (ih h)

/-- **Seeks bring the modes back**: once the last one has finished, the pacing is the one from
before the first, and so is the playing flag unless the end of the timeline was reached, for
seeks that each keep the modes. -/
theorem seeks_restore_modes (s : RawCaptureReplay) (steps : List ReplayStep)
    (hstart : s.targetEventIndex = 0) (hsteps : SeeksKeepModes s.playing s steps)
    (hfinished : (s.run steps).SeekFinished) :
    (s.run steps).pacing = s.pacing ∧ (ReachesEnd s steps ∨ (s.run steps).playing = s.playing) := by
  have hnone : ¬ 0 < s.targetEventIndex := by
    rw [hstart]
    exact lt_irrefl 0
  have hbegin : SeekRun s.pacing s.playing False s := by
    refine ⟨⟨fun hpos => absurd hpos hnone, fun hpos => absurd hpos hnone, ?_,
      fun hpos => absurd hpos hnone, fun hpos => absurd hpos hnone⟩,
      if_neg hnone, .inr (.inr (.inr (if_neg hnone)))⟩
    rw [hstart]
    exact Nat.zero_le _
  obtain ⟨hbounds, hpacing, hmodes⟩ := SeekRun.run steps hbegin hsteps
  obtain ⟨hdone, -, hnotFailed⟩ := hfinished
  have hplaying := hmodes.resolve_left fun hfailed => hnotFailed hfailed.1
  have hcurrent := hbounds.current fun hpos hphase =>
    absurd (hdone.resolve_right hphase) (Nat.ne_of_gt hpos)
  refine ⟨hcurrent.1.symm.trans hpacing, ?_⟩
  obtain (hfalse | hreached) | hended | heq := hplaying
  · exact hfalse.elim
  · exact .inl hreached
  · exact .inl (reachesEnd_last steps hended)
  obtain hended | hmode := hcurrent.2
  · exact .inl (reachesEnd_last steps hended)
  · exact .inr (hmode.symm.trans heq)

/-- Two received events, browsed at their own pace. -/
def twoEventReplay : RawCaptureReplay :=
  loadRawCaptureReplayTimeline [{ bytes := [1] }, { bytes := [2] }] .browseRaw .originalTimeline

/-- A seek between the two events and the pumps that finish it. -/
def seekBetween : List ReplayStep :=
  [.seek 1 .started, .pump { rounds := [{}, {}] }, .pump { rounds := [{}] }, .pump {}]

theorem seekBetween_restores_modes :
    (twoEventReplay.run seekBetween).pacing = .originalTimeline ∧
      (ReachesEnd twoEventReplay seekBetween ∨ (twoEventReplay.run seekBetween).playing = false) :=
  seeks_restore_modes twoEventReplay seekBetween rfl
    ⟨⟨(fun heq => nomatch heq), (fun hpos => absurd hpos (lt_irrefl 0)), (fun heq => nomatch heq),
      (fun heq => nomatch heq)⟩, trivial, trivial, trivial, trivial⟩
    ⟨.inl rfl, by decide, by decide⟩

/-- A seek to the start leaves the pacing fast. -/
theorem seek_to_start_loses_pacing :
    ¬ ∀ (events : List RawCaptureEvent) (processing : OfflineReplayProcessing)
        (pacing : OfflineReplayPacing) (before seeks : List ReplayStep),
        ((loadRawCaptureReplayTimeline events processing pacing).run before).targetEventIndex = 0 →
        (∀ step ∈ seeks, IsSeekStep step) →
        (((loadRawCaptureReplayTimeline events processing pacing).run before).run seeks).SeekFinished →
        (((loadRawCaptureReplayTimeline events processing pacing).run before).run seeks).pacing =
            ((loadRawCaptureReplayTimeline events processing pacing).run before).pacing ∧
          (ReachesEnd ((loadRawCaptureReplayTimeline events processing pacing).run before) seeks ∨
            (((loadRawCaptureReplayTimeline events processing pacing).run before).run seeks).playing =
              ((loadRawCaptureReplayTimeline events processing pacing).run before).playing) := by
  intro hall
  have hstep : ∀ step ∈ [ReplayStep.seek 0 .started], IsSeekStep step := by
    intro step hmem
    rw [List.mem_singleton.mp hmem]
    trivial
  have hpacing := (hall [{ bytes := [1] }, { bytes := [2] }] .browseRaw .originalTimeline []
    [.seek 0 .started] rfl hstep ⟨.inl rfl, by decide, by decide⟩).1
  cases hpacing

end ProtoScope.App.RawCaptureReplay
