/-
What the steps of a replay leave alone.

The worker's thread and the flushes touch the worker, the plot appends and the record of
effects; submitting an event touches the position besides.  The modes of playback, which a
seek changes for a while, are changed by neither.
-/
import ProtoScope.App.RawCaptureReplay

namespace ProtoScope.App.RawCaptureReplay

open ProtoScope.Plot

/-- The modes of playback and the timeline are the same. -/
structure SameModes (s t : RawCaptureReplay) : Prop where
  loaded : t.loaded = s.loaded
  playing : t.playing = s.playing
  events : t.events = s.events
  targetEventIndex : t.targetEventIndex = s.targetEventIndex
  resumeAfterSeek : t.resumeAfterSeek = s.resumeAfterSeek
  pacingAfterSeek : t.pacingAfterSeek = s.pacingAfterSeek
  phase : t.phase = s.phase
  processing : t.processing = s.processing
  pacing : t.pacing = s.pacing

theorem SameModes.refl (s : RawCaptureReplay) : SameModes s s := by
  constructor <;> rfl

theorem SameModes.trans {s t u : RawCaptureReplay} (h : SameModes s t) (h' : SameModes t u) :
    SameModes s u where
  loaded := h'.loaded.trans h.loaded
  playing := h'.playing.trans h.playing
  events := h'.events.trans h.events
  targetEventIndex := h'.targetEventIndex.trans h.targetEventIndex
  resumeAfterSeek := h'.resumeAfterSeek.trans h.resumeAfterSeek
  pacingAfterSeek := h'.pacingAfterSeek.trans h.pacingAfterSeek
  phase := h'.phase.trans h.phase
  processing := h'.processing.trans h.processing
  pacing := h'.pacing.trans h.pacing

/-- The position in the timeline and what has been submitted are the same as well. -/
structure SamePosition (s t : RawCaptureReplay) : Prop extends SameModes s t where
  eventIndex : t.eventIndex = s.eventIndex
  legacyByteOffset : t.legacyByteOffset = s.legacyByteOffset
  legacyEventStarted : t.legacyEventStarted = s.legacyEventStarted
  profileFence : t.profileFence = s.profileFence
  submitted : t.submitted = s.submitted
  delivered : t.delivered = s.delivered
  posted : t.posted = s.posted
  isSome_worker : t.worker.isSome = s.worker.isSome

theorem SamePosition.refl (s : RawCaptureReplay) : SamePosition s s := by
  constructor <;> first | rfl | exact SameModes.refl s

theorem SamePosition.trans {s t u : RawCaptureReplay} (h : SamePosition s t) (h' : SamePosition t u) :
    SamePosition s u where
  toSameModes := h.toSameModes.trans h'.toSameModes
  eventIndex := h'.eventIndex.trans h.eventIndex
  legacyByteOffset := h'.legacyByteOffset.trans h.legacyByteOffset
  legacyEventStarted := h'.legacyEventStarted.trans h.legacyEventStarted
  profileFence := h'.profileFence.trans h.profileFence
  submitted := h'.submitted.trans h.submitted
  delivered := h'.delivered.trans h.delivered
  posted := h'.posted.trans h.posted
  isSome_worker := h'.isSome_worker.trans h.isSome_worker

/-! ### The worker's thread -/

theorem executeCommand_same (ok : Bool) (buffer : Option Scripting.StreamBufferDefinition)
    (plotAppends : Option ℕ) (command : OfflineCommand) {worker : OfflineWorker}
    {s : RawCaptureReplay} (h : s.worker = some worker) :
    SamePosition s (s.executeCommand ok buffer plotAppends command worker) := by
  have hsome : s.worker.isSome = true := by rw [h]; rfl
  cases command with
  | load => exact ⟨⟨rfl, rfl, rfl, rfl, rfl, rfl, rfl, rfl, rfl⟩, rfl, rfl, rfl, rfl, rfl, rfl, rfl, hsome.symm⟩
  | bytes => exact ⟨⟨rfl, rfl, rfl, rfl, rfl, rfl, rfl, rfl, rfl⟩, rfl, rfl, rfl, rfl, rfl, rfl, rfl, hsome.symm⟩
  | profile => exact ⟨⟨rfl, rfl, rfl, rfl, rfl, rfl, rfl, rfl, rfl⟩, rfl, rfl, rfl, rfl, rfl, rfl, rfl, hsome.symm⟩

/-- Another worker in the place of one. -/
theorem withWorker_same {s : RawCaptureReplay} {worker : OfflineWorker} (h : s.worker = some worker)
    (other : OfflineWorker) : SamePosition s { s with worker := some other } := by
  have hsome : s.worker.isSome = true := by rw [h]; rfl
  exact ⟨⟨rfl, rfl, rfl, rfl, rfl, rfl, rfl, rfl, rfl⟩, rfl, rfl, rfl, rfl, rfl, rfl, rfl, hsome.symm⟩

theorem workerStep_same (s : RawCaptureReplay) (move : WorkerMove) :
    SamePosition s (s.workerStep move) := by
  unfold workerStep
  split
  · exact SamePosition.refl s
  · rename_i worker hworker
    cases move with
    | take =>
      show SamePosition s (s.takeCommand worker)
      unfold takeCommand
      split
      · exact withWorker_same hworker _
      · exact SamePosition.refl s
    | execute ok buffer plotAppends =>
      show SamePosition s (s.executeTaken ok buffer plotAppends worker)
      unfold executeTaken
      split
      · exact executeCommand_same ok buffer plotAppends _ hworker
      · exact SamePosition.refl s
    | publish =>
      show SamePosition s (s.publishExecuted worker)
      unfold publishExecuted
      split
      · exact withWorker_same hworker _
      · exact SamePosition.refl s
    | finish =>
      show SamePosition s (s.finishPublished worker)
      unfold finishPublished
      split
      · exact withWorker_same hworker _
      · exact SamePosition.refl s

theorem workerRun_same (moves : List WorkerMove) (s : RawCaptureReplay) :
    SamePosition s (s.workerRun moves) := by
  induction moves generalizing s with
  | nil => exact SamePosition.refl s
  | cons move moves ih => exact (workerStep_same s move).trans (ih _)

/-! ### Flushes -/

theorem drainOneOutput_same (kept : List Bool) (s : RawCaptureReplay) :
    SamePosition s (s.drainOneOutput kept) := by
  unfold drainOneOutput
  split
  · exact SamePosition.refl s
  · rename_i worker hworker
    have hsome : s.worker.isSome = true := by rw [hworker]; rfl
    split
    · exact SamePosition.refl s
    · exact ⟨⟨rfl, rfl, rfl, rfl, rfl, rfl, rfl, rfl, rfl⟩, rfl, rfl, rfl, rfl, rfl, rfl, rfl, hsome.symm⟩

theorem consumePlotAppends_same (kept : List Bool) (s : RawCaptureReplay) :
    SamePosition s (s.consumePlotAppends kept) :=
  ⟨⟨rfl, rfl, rfl, rfl, rfl, rfl, rfl, rfl, rfl⟩, rfl, rfl, rfl, rfl, rfl, rfl, rfl, rfl⟩

theorem flush_same (flush : Flush) (s : RawCaptureReplay) :
    SamePosition s (s.flushOfflineScriptOutputs flush) := by
  have hbatches : ∀ (batches : List (List WorkerMove × List Bool)) (s : RawCaptureReplay),
      SamePosition s
        (batches.foldl (fun s batch => drainOneOutput batch.2 (s.workerRun batch.1)) s) := by
    intro batches
    induction batches with
    | nil => exact SamePosition.refl
    | cons batch batches ih =>
      intro s
      exact ((workerRun_same batch.1 s).trans (drainOneOutput_same batch.2 _)).trans (ih _)
  exact (consumePlotAppends_same flush.kept s).trans (hbatches _ _)

theorem pumpOutputs_same (flush : Flush) (s : RawCaptureReplay) :
    SameModes s (s.pumpOutputs flush) ∧ (s.pumpOutputs flush).eventIndex = s.eventIndex := by
  unfold pumpOutputs
  split
  · exact ⟨SameModes.refl s, rfl⟩
  · have hflush := flush_same flush s
    unfold noteCompletedInputs
    split
    · exact ⟨⟨hflush.loaded, hflush.playing, hflush.events, hflush.targetEventIndex,
        hflush.resumeAfterSeek, hflush.pacingAfterSeek, hflush.phase, hflush.processing,
        hflush.pacing⟩, hflush.eventIndex⟩
    · exact ⟨hflush.toSameModes, hflush.eventIndex⟩

/-! ### Submitting an event -/

theorem replayRawCaptureEvent_same (frameApplied : Bool) (index : ℕ) (event : RawCaptureEvent)
    (s : RawCaptureReplay) :
    SameModes s (s.replayRawCaptureEvent frameApplied index event).1 ∧
      (s.replayRawCaptureEvent frameApplied index event).1.eventIndex = s.eventIndex := by
  unfold replayRawCaptureEvent
  split
  · exact ⟨⟨rfl, rfl, rfl, rfl, rfl, rfl, rfl, rfl, rfl⟩, rfl⟩
  split
  · split
    · exact ⟨SameModes.refl s, rfl⟩
    split
    · exact ⟨⟨rfl, rfl, rfl, rfl, rfl, rfl, rfl, rfl, rfl⟩, rfl⟩
    split
    · exact ⟨⟨rfl, rfl, rfl, rfl, rfl, rfl, rfl, rfl, rfl⟩, rfl⟩
    · exact ⟨⟨rfl, rfl, rfl, rfl, rfl, rfl, rfl, rfl, rfl⟩, rfl⟩
  split
  · exact ⟨⟨rfl, rfl, rfl, rfl, rfl, rfl, rfl, rfl, rfl⟩, rfl⟩
  split
  · exact ⟨⟨rfl, rfl, rfl, rfl, rfl, rfl, rfl, rfl, rfl⟩, rfl⟩
  split
  · exact ⟨SameModes.refl s, rfl⟩
  · exact ⟨⟨rfl, rfl, rfl, rfl, rfl, rfl, rfl, rfl, rfl⟩, rfl⟩

theorem postSlice_same (index : ℕ) (slice : List UInt8) (s : RawCaptureReplay) :
    SameModes s (s.postSlice index slice) ∧ (s.postSlice index slice).eventIndex = s.eventIndex := by
  unfold postSlice
  split
  · exact ⟨SameModes.refl s, rfl⟩
  · exact ⟨⟨rfl, rfl, rfl, rfl, rfl, rfl, rfl, rfl, rfl⟩, rfl⟩

theorem replayLegacySlice_same (chunkBytes accepted index : ℕ) (event : RawCaptureEvent)
    (s : RawCaptureReplay) :
    SameModes s (s.replayLegacySlice chunkBytes accepted index event) ∧
      ((s.replayLegacySlice chunkBytes accepted index event).eventIndex = s.eventIndex ∨
        (s.replayLegacySlice chunkBytes accepted index event).eventIndex = index + 1) := by
  unfold replayLegacySlice
  split
  · exact ⟨SameModes.refl s, .inl rfl⟩
  split
  · obtain ⟨hsame, hindex⟩ := postSlice_same index (s.legacySlice chunkBytes accepted event) s
    exact ⟨⟨hsame.loaded, hsame.playing, hsame.events, hsame.targetEventIndex, hsame.resumeAfterSeek,
      hsame.pacingAfterSeek, hsame.phase, hsame.processing, hsame.pacing⟩, .inl hindex⟩
  · exact ⟨⟨rfl, rfl, rfl, rfl, rfl, rfl, rfl, rfl, rfl⟩, .inr rfl⟩

/-- An event moves the position by one at most, and stays inside the timeline. -/
theorem replayRawCaptureEventAt_same (choice : EventChoice) (s : RawCaptureReplay) :
    SameModes s (s.replayRawCaptureEventAt choice s.eventIndex).1 ∧
      ((s.replayRawCaptureEventAt choice s.eventIndex).1.eventIndex = s.eventIndex ∨
        (s.eventIndex < s.events.length ∧
          (s.replayRawCaptureEventAt choice s.eventIndex).1.eventIndex = s.eventIndex + 1)) := by
  unfold replayRawCaptureEventAt
  split
  · exact ⟨SameModes.refl s, .inl rfl⟩
  split
  · exact ⟨SameModes.refl s, .inl rfl⟩
  · rename_i event hevent
    have hlt : s.eventIndex < s.events.length := (List.getElem?_eq_some_iff.mp hevent).1
    split
    · have hflush := flush_same choice.flush s
      obtain ⟨hsame, hindex⟩ := replayLegacySlice_same
        (resolveRawCaptureReplayChunkBytes s.streamBuffer) choice.accepted s.eventIndex event
        (s.flushOfflineScriptOutputs choice.flush)
      refine ⟨hflush.toSameModes.trans hsame, hindex.imp (fun h => h.trans hflush.eventIndex) ?_⟩
      exact fun h => ⟨hlt, h⟩
    · obtain ⟨hsame, hindex⟩ := replayRawCaptureEvent_same choice.frameApplied s.eventIndex event s
      split
      · exact ⟨⟨hsame.loaded, hsame.playing, hsame.events, hsame.targetEventIndex, hsame.resumeAfterSeek,
          hsame.pacingAfterSeek, hsame.phase, hsame.processing, hsame.pacing⟩, .inr ⟨hlt, rfl⟩⟩
      · exact ⟨hsame, .inl hindex⟩

end ProtoScope.App.RawCaptureReplay
