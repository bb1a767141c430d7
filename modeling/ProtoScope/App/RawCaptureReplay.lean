/-
The replay of a recorded timeline through an offline worker.

The main loop submits the events of the timeline: bytes go to the worker as commands, a plot
setup is applied at once, a profile is given to the frame parser at once and to the worker
as a command, which a fence waits for.  The worker takes its commands one after another and
publishes what their callbacks have put out; the main loop drains that and may leave some of
the plot appends for later.

When the worker gets on, how much of the outputs one flush takes, whether the clock lets an
event be due and which calls fail are choices of the environment.  The rows of the transfer
view and the wave itself are left out.
-/
import ProtoScope.Plot.RawCaptureEvents
import ProtoScope.Scripting.StreamTypes

namespace ProtoScope.App

open ProtoScope.Plot
open ProtoScope.Scripting (StreamBufferDefinition)

def kRawCaptureReplayLargeChunkBytes : ℕ := 64 * 1024

def kRawCaptureReplayEventsPerPump : ℕ := 256

def kRawCaptureReplayBytesPerPump : ℕ := 64 * 1024

def resolveRawCaptureReplayChunkBytes (streamBuffer : Option StreamBufferDefinition) : ℕ :=
  match streamBuffer with
  | none => kRawCaptureReplayLargeChunkBytes
  | some buffer =>
    if buffer.dropOldest then max 1 (buffer.capacity / 2) else kRawCaptureReplayLargeChunkBytes

inductive OfflineReplayProcessing where
  | browseRaw
  | currentProtocol
  | packageProtocol
deriving DecidableEq

inductive OfflineReplayPacing where
  | originalTimeline
  | fastBatchParse
deriving DecidableEq

inductive OfflineReplayPhase where
  | preparing
  | replaying
  | draining
  | paused
  | completed
  | failed
  | cancelled
deriving DecidableEq

/-! ### The worker -/

/-- A command of the offline worker, with the index of its event in the timeline. -/
inductive OfflineCommand where
  | load
  | bytes (event : ℕ) (size : ℕ)
  | profile (event : ℕ)

def OfflineCommand.rxEvent? : OfflineCommand → Option ℕ
  | .bytes event _ => some event
  | _ => none

def OfflineCommand.rxSize : OfflineCommand → ℕ
  | .bytes _ size => size
  | _ => 0

/-- A published batch: the received event it comes from, and its plot appends. -/
structure WorkerBatch where
  event : Option ℕ
  plotAppends : ℕ

/-- How far the command that was taken is. -/
inductive CommandStage where
  | taken
  | executed (batch : Option WorkerBatch)
  | published

structure OfflineWorker where
  commands : List OfflineCommand := []
  executing : Option (OfflineCommand × CommandStage) := none
  pendingRxBytes : ℕ := 0
  outputs : List WorkerBatch := []
  /-- What the futures of the commands hold. -/
  loadResult : Option Bool := none
  profileResults : List (ℕ × Bool) := []
  /-- The stream buffer of the host, and of the last snapshot. -/
  hostBuffer : Option StreamBufferDefinition := none
  streamBuffer : Option StreamBufferDefinition := none

namespace OfflineWorker

def idle (worker : OfflineWorker) : Bool :=
  worker.executing.isNone && worker.commands.isEmpty && worker.outputs.isEmpty

def inputIdle (worker : OfflineWorker) : Bool :=
  worker.executing.isNone && worker.commands.isEmpty && worker.pendingRxBytes == 0

def pushCommand (command : OfflineCommand) (worker : OfflineWorker) : OfflineWorker :=
  { worker with commands := worker.commands ++ [command] }

def pushBytes (event size : ℕ) (worker : OfflineWorker) : OfflineWorker :=
  if size = 0 then worker
  else
    { worker with
      commands := worker.commands ++ [.bytes event size]
      pendingRxBytes := worker.pendingRxBytes + size }

end OfflineWorker

/-- What the worker's thread does next. -/
inductive WorkerMove where
  | take
  /-- The command runs: whether it succeeds, the buffer its protocol declares, and the plot
  appends of its outputs, if there are any. -/
  | execute (ok : Bool) (buffer : Option StreamBufferDefinition) (plotAppends : Option ℕ)
  | publish
  | finish

/-! ### The state -/

/-- A control event that takes effect: the received events whose outputs are not all applied
then, and those of which bytes have been submitted. -/
structure ControlEffect where
  event : ℕ
  unapplied : List ℕ
  posted : List ℕ

/-- `rawCaptureReplay_` with the worker and the plot appends that wait.  The last fields only
record what has happened, all but the effects since the last preparation. -/
structure RawCaptureReplay where
  loaded : Bool := true
  playing : Bool := false
  events : List RawCaptureEvent
  eventIndex : ℕ := 0
  legacyByteOffset : ℕ := 0
  legacyEventStarted : Bool := false
  targetEventIndex : ℕ := 0
  completedLuaInputs : ℕ := 0
  resumeAfterSeek : Bool := false
  pacingAfterSeek : OfflineReplayPacing := .originalTimeline
  phase : OfflineReplayPhase := .paused
  processing : OfflineReplayProcessing := .browseRaw
  pacing : OfflineReplayPacing := .originalTimeline
  /-- The future of the preparation is still held. -/
  preparation : Bool := false
  /-- The profile event whose future is held. -/
  profileFence : Option ℕ := none
  /-- `importedRebuildGeneration_` is this generation. -/
  rebuilding : Bool := false
  worker : Option OfflineWorker := none
  pendingPlotAppends : List (Option ℕ) := []
  submitted : List ℕ := []
  delivered : List UInt8 := []
  posted : List ℕ := []
  dropped : List ℕ := []
  effects : List ControlEffect := []

namespace RawCaptureReplay

/-- Received events with bytes in the queue of the worker, at work or in its outputs. -/
def workerEvents (s : RawCaptureReplay) : List ℕ :=
  match s.worker with
  | none => []
  | some worker =>
    worker.commands.filterMap OfflineCommand.rxEvent? ++
      (worker.executing.toList.filterMap fun command => command.1.rxEvent?) ++
        worker.outputs.filterMap WorkerBatch.event

def unapplied (s : RawCaptureReplay) : List ℕ :=
  s.workerEvents ++ s.pendingPlotAppends.filterMap id ++ s.dropped

def controlEffect (event : ℕ) (s : RawCaptureReplay) : ControlEffect where
  event := event
  unapplied := s.unapplied
  posted := s.posted

def browses (s : RawCaptureReplay) : Prop := s.processing = .browseRaw

instance (s : RawCaptureReplay) : Decidable s.browses := inferInstanceAs (Decidable (_ = _))

/-! ### The worker's thread -/

/-- The command has run; loading a protocol drops the bytes that are queued. -/
def executeCommand (ok : Bool) (buffer : Option StreamBufferDefinition) (plotAppends : Option ℕ)
    (command : OfflineCommand) (worker : OfflineWorker) (s : RawCaptureReplay) : RawCaptureReplay :=
  match command with
  | .load =>
    { s with
      worker := some
        { worker with
          commands := worker.commands.filter fun command => command.rxEvent?.isNone
          pendingRxBytes := worker.pendingRxBytes - (worker.commands.map OfflineCommand.rxSize).sum
          executing := some (.load, .executed (plotAppends.map (WorkerBatch.mk none)))
          loadResult := some ok
          hostBuffer := buffer }
      dropped := s.dropped ++ worker.commands.filterMap OfflineCommand.rxEvent? }
  | .bytes event size =>
    { s with
      worker := some
        { worker with
          pendingRxBytes := worker.pendingRxBytes - size
          executing :=
            some (.bytes event size, .executed (plotAppends.map (WorkerBatch.mk (some event)))) } }
  | .profile event =>
    { s with
      worker := some
        { worker with
          executing := some (.profile event, .executed (plotAppends.map (WorkerBatch.mk none)))
          profileResults := worker.profileResults ++ [(event, ok)] }
      effects := s.effects ++ [s.controlEffect event] }

def takeCommand (worker : OfflineWorker) (s : RawCaptureReplay) : RawCaptureReplay :=
  match worker.executing, worker.commands with
  | none, command :: commands =>
    { s with
      worker := some { worker with commands := commands, executing := some (command, .taken) } }
  | _, _ => s

def executeTaken (ok : Bool) (buffer : Option StreamBufferDefinition) (plotAppends : Option ℕ)
    (worker : OfflineWorker) (s : RawCaptureReplay) : RawCaptureReplay :=
  match worker.executing with
  | some (command, .taken) => s.executeCommand ok buffer plotAppends command worker
  | _ => s

def publishExecuted (worker : OfflineWorker) (s : RawCaptureReplay) : RawCaptureReplay :=
  match worker.executing with
  | some (command, .executed batch) =>
    { s with
      worker := some
        { worker with
          outputs := worker.outputs ++ batch.toList
          executing := some (command, .published) } }
  | _ => s

def finishPublished (worker : OfflineWorker) (s : RawCaptureReplay) : RawCaptureReplay :=
  match worker.executing with
  | some (_, .published) =>
    { s with worker := some { worker with executing := none, streamBuffer := worker.hostBuffer } }
  | _ => s

def workerMove (worker : OfflineWorker) (s : RawCaptureReplay) : WorkerMove → RawCaptureReplay
  | .take => s.takeCommand worker
  | .execute ok buffer plotAppends => s.executeTaken ok buffer plotAppends worker
  | .publish => s.publishExecuted worker
  | .finish => s.finishPublished worker

def workerStep (s : RawCaptureReplay) (move : WorkerMove) : RawCaptureReplay :=
  match s.worker with
  | none => s
  | some worker => s.workerMove worker move

def workerRun (moves : List WorkerMove) (s : RawCaptureReplay) : RawCaptureReplay :=
  moves.foldl workerStep s

/-! ### Draining outputs -/

/-- The items that are marked; the others, and those past the marks, are consumed. -/
def keepMarked {α : Type} : List Bool → List α → List α
  | mark :: marks, item :: items =>
    if mark then item :: keepMarked marks items else keepMarked marks items
  | _, _ => []

/-- One flush: the appends that stay pending at its start, and for each batch what the worker
does before it is drained and the appends that stay pending after it. -/
structure Flush where
  kept : List Bool := []
  batches : List (List WorkerMove × List Bool) := []

/-- `offlineWaveRebuilding` -/
def offlineWaveRebuilding (s : RawCaptureReplay) : Bool :=
  s.worker.isSome && s.rebuilding && s.loaded && s.phase ≠ .failed && s.phase ≠ .cancelled &&
    s.processing ≠ .browseRaw

def drainOneOutput (kept : List Bool) (s : RawCaptureReplay) : RawCaptureReplay :=
  match s.worker with
  | none => s
  | some worker =>
    match worker.outputs with
    | [] => s
    | batch :: outputs =>
      { s with
        worker := some { worker with outputs := outputs }
        pendingPlotAppends :=
          if s.offlineWaveRebuilding then
            keepMarked kept (s.pendingPlotAppends ++ List.replicate batch.plotAppends batch.event)
          else s.pendingPlotAppends }

def consumePlotAppends (kept : List Bool) (s : RawCaptureReplay) : RawCaptureReplay :=
  { s with
    pendingPlotAppends :=
      if s.offlineWaveRebuilding then keepMarked kept s.pendingPlotAppends
      else s.pendingPlotAppends }

def flushOfflineScriptOutputs (flush : Flush) (s : RawCaptureReplay) : RawCaptureReplay :=
  flush.batches.foldl (fun s batch => drainOneOutput batch.2 (s.workerRun batch.1))
    (s.consumePlotAppends flush.kept)

/-! ### One event -/

/-- What happens when an event is replayed: a flush, the bytes of a slice that the worker
accepts, and whether the frame parser takes a profile. -/
structure EventChoice where
  flush : Flush := {}
  accepted : ℕ := 0
  frameApplied : Bool := true

/-- The event at the index has been submitted. -/
def submit (event : ℕ) (s : RawCaptureReplay) : RawCaptureReplay :=
  { s with submitted := s.submitted ++ [event] }

/-- Some bytes of a received event go out. -/
def post (event : ℕ) (bytes : List UInt8) (s : RawCaptureReplay) : RawCaptureReplay :=
  { s with
    worker := s.worker.map (OfflineWorker.pushBytes event bytes.length)
    delivered := s.delivered ++ bytes
    posted := s.posted ++ [event] }

def takeEffect (event : ℕ) (s : RawCaptureReplay) : RawCaptureReplay :=
  { s with effects := s.effects ++ [s.controlEffect event] }

/-- The profile goes to the worker, and its future is held. -/
def applyProfileAsync (event : ℕ) (s : RawCaptureReplay) : RawCaptureReplay :=
  { s with
    worker := s.worker.map (OfflineWorker.pushCommand (.profile event))
    profileFence := some event }

/-- The state, and whether the event was replayed. -/
def replayRawCaptureEvent (frameApplied : Bool) (index : ℕ) (event : RawCaptureEvent)
    (s : RawCaptureReplay) : RawCaptureReplay × Bool :=
  if event.type = .txBytes then (s.submit index, true)
  else if event.type = .profileSet ∨ event.type = .profileClear then
    if frameApplied = false then (s, false)
    else if s.browses then ((s.takeEffect index).submit index, true)
    else if s.worker.isNone then (s.takeEffect index, false)
    else (((s.takeEffect index).applyProfileAsync index).submit index, true)
  else if event.type = .plotSetup then ((s.takeEffect index).submit index, true)
  else if event.bytes = [] then (s.submit index, true)
  else if ¬ s.browses ∧ s.worker.isNone then (s, false)
  else ((s.post index event.bytes).submit index, true)

def streamBuffer (s : RawCaptureReplay) : Option StreamBufferDefinition :=
  s.worker.bind OfflineWorker.streamBuffer

/-- A recorded event without a boundary of callbacks that is larger than the stream buffer. -/
def slicedLegacy (event : RawCaptureEvent) (s : RawCaptureReplay) : Prop :=
  ¬ s.browses ∧ event.type = .rxBytes ∧ event.sequence = 0 ∧
    ∃ buffer ∈ s.streamBuffer, buffer.capacity < event.bytes.length

instance (event : RawCaptureEvent) (s : RawCaptureReplay) : Decidable (s.slicedLegacy event) :=
  inferInstanceAs (Decidable (_ ∧ _ ∧ _ ∧ _))

def workerInputIdle (s : RawCaptureReplay) : Bool := s.worker.any OfflineWorker.inputIdle

def workerIdle (s : RawCaptureReplay) : Bool := s.worker.any OfflineWorker.idle

/-- The next slice of the event, as far as the worker accepts it. -/
def legacySlice (chunkBytes accepted : ℕ) (event : RawCaptureEvent) (s : RawCaptureReplay) :
    List UInt8 :=
  ((event.bytes.drop s.legacyByteOffset).take chunkBytes).take accepted

def postSlice (index : ℕ) (slice : List UInt8) (s : RawCaptureReplay) : RawCaptureReplay :=
  if slice = [] then s else s.post index slice

/-- A slice of a large event, or its end once all slices are consumed. -/
def replayLegacySlice (chunkBytes accepted index : ℕ) (event : RawCaptureEvent)
    (s : RawCaptureReplay) : RawCaptureReplay :=
  if s.workerInputIdle = false then s
  else if s.legacyByteOffset < event.bytes.length then
    { s.postSlice index (s.legacySlice chunkBytes accepted event) with
      legacyEventStarted := true
      legacyByteOffset := s.legacyByteOffset + (s.legacySlice chunkBytes accepted event).length }
  else
    { s.submit index with legacyByteOffset := 0, legacyEventStarted := false, eventIndex := index + 1 }

def replayRawCaptureEventAt (choice : EventChoice) (index : ℕ) (s : RawCaptureReplay) :
    RawCaptureReplay × Bool :=
  if s.loaded = false then (s, false)
  else
    match s.events[index]? with
    | none => (s, true)
    | some event =>
      if s.slicedLegacy event then
        (replayLegacySlice (resolveRawCaptureReplayChunkBytes s.streamBuffer) choice.accepted index event
          (s.flushOfflineScriptOutputs choice.flush), true)
      else if (s.replayRawCaptureEvent choice.frameApplied index event).2 then
        ({ (s.replayRawCaptureEvent choice.frameApplied index event).1 with eventIndex := index + 1 }, true)
      else ((s.replayRawCaptureEvent choice.frameApplied index event).1, false)

/-! ### Pumping -/

/-- What is seen of the fence. -/
inductive FenceState where
  | open
  | waiting
  | failed

/-- A fence that is ready is taken; nothing is left of it unless it has failed. -/
def fenceState (s : RawCaptureReplay) : FenceState :=
  match s.profileFence with
  | none => .open
  | some event =>
    match (s.worker.bind fun worker => worker.profileResults.lookup event) with
    | none => .waiting
    | some true => .open
    | some false => .failed

def fail (s : RawCaptureReplay) : RawCaptureReplay := { s with phase := .failed, playing := false }

structure DrainChoice where
  flush : Flush := {}
  /-- The new protocol has reported an error. -/
  protocolFailed : Bool := false
  /-- No rows and no appends of the host are left. -/
  settled : Bool := true

/-- The end of draining. -/
def finishDraining (s : RawCaptureReplay) : RawCaptureReplay :=
  if s.events.length ≤ s.eventIndex then
    { s with playing := false, phase := .completed, rebuilding := false }
  else { s with phase := if s.playing then .replaying else .paused }

/-- Draining once the outputs are flushed. -/
def drainFlushed (choice : DrainChoice) (s : RawCaptureReplay) : RawCaptureReplay :=
  if choice.protocolFailed then s.fail
  else if ¬ s.browses ∧ (s.workerIdle = false ∨ s.pendingPlotAppends ≠ []) then s
  else if choice.settled = false then s
  else s.finishDraining

def drainRawCaptureReplay (choice : DrainChoice) (s : RawCaptureReplay) : RawCaptureReplay :=
  match s.fenceState with
  | .waiting => s
  | .failed => { s with profileFence := none, phase := .failed }
  | .open =>
    drainFlushed choice
      (flushOfflineScriptOutputs choice.flush { s with profileFence := none })

/-- One round of the loop of a pump: what the worker does before it, and whether the event is
due. -/
structure Round where
  moves : List WorkerMove := []
  due : Bool := true
  event : EventChoice := {}

structure PumpChoice where
  flush : Flush := {}
  /-- The rounds until the clock ends the loop. -/
  rounds : List Round := []
  drain : DrainChoice := {}

/-- The result of a preparation that is ready. -/
def finishPreparation (worker : OfflineWorker) (s : RawCaptureReplay) : RawCaptureReplay :=
  if worker.loadResult = some true then
    { s with
      preparation := false
      rebuilding := true
      pendingPlotAppends := []
      phase := if 0 < s.targetEventIndex ∨ s.playing = true then .replaying else .paused
      playing := decide (0 < s.targetEventIndex) || s.playing }
  else { s with preparation := false, phase := .failed, playing := false }

def pumpPreparation (s : RawCaptureReplay) : RawCaptureReplay :=
  match s.worker with
  | none => s
  | some worker =>
    if s.preparation = true ∧ worker.loadResult.isSome = true ∧ worker.inputIdle = true then
      finishPreparation worker { s with worker := some { worker with outputs := [] } }
    else { s with worker := some { worker with outputs := [] } }

/-- The bound of a seek is reached: the pacing and the playing of before come back. -/
def finishSeek (s : RawCaptureReplay) : RawCaptureReplay :=
  { s with
    playing := s.resumeAfterSeek
    phase := .draining
    pacing := s.pacingAfterSeek
    targetEventIndex := 0
    resumeAfterSeek := false }

/-- The event may be submitted now. -/
def admits (round : Round) (events : ℕ) (event : RawCaptureEvent) (s : RawCaptureReplay) : Prop :=
  (s.slicedLegacy event → s.workerInputIdle = true) ∧
  (s.pacing = .originalTimeline → s.legacyEventStarted = false → round.due = true) ∧
  (kRawCaptureReplayBytesPerPump < event.bytes.length → events = 0) ∧
  (¬ s.browses →
    s.worker.isSome = true ∧
    (event.type ≠ .rxBytes → s.workerIdle = true ∧ s.pendingPlotAppends = []) ∧
    (event.type = .rxBytes →
      s.worker.all (fun worker => worker.pendingRxBytes < kRawCaptureReplayBytesPerPump) = true))

instance (round : Round) (events : ℕ) (event : RawCaptureEvent) (s : RawCaptureReplay) :
    Decidable (s.admits round events event) :=
  inferInstanceAs (Decidable (_ ∧ _ ∧ _ ∧ _))

/-- A round ends the loop, fails or lets it go on. -/
inductive RoundResult where
  | stop (s : RawCaptureReplay)
  | fail (s : RawCaptureReplay)
  | next (s : RawCaptureReplay)

/-- The bound of the seek that runs is reached. -/
def atTarget (s : RawCaptureReplay) : Prop :=
  0 < s.targetEventIndex ∧ s.targetEventIndex ≤ s.eventIndex

instance (s : RawCaptureReplay) : Decidable s.atTarget := inferInstanceAs (Decidable (_ ∧ _))

/-- A round once the event is admitted. -/
def submitRound (choice : EventChoice) (s : RawCaptureReplay) : RoundResult :=
  if (s.replayRawCaptureEventAt choice s.eventIndex).2 = false then
    .fail (s.replayRawCaptureEventAt choice s.eventIndex).1.fail
  else if (s.replayRawCaptureEventAt choice s.eventIndex).1.eventIndex = s.eventIndex ∨
      (s.replayRawCaptureEventAt choice s.eventIndex).1.atTarget then
    .stop (s.replayRawCaptureEventAt choice s.eventIndex).1
  else .next (s.replayRawCaptureEventAt choice s.eventIndex).1

/-- A round with no fence. -/
def openRound (round : Round) (events : ℕ) (event : RawCaptureEvent) (s : RawCaptureReplay) :
    RoundResult :=
  if s.atTarget then
    if ¬ s.browses ∧ s.completedLuaInputs < s.targetEventIndex then .stop s else .stop s.finishSeek
  else if s.admits round events event then s.submitRound round.event
  else .stop s

def pumpRound (round : Round) (events : ℕ) (event : RawCaptureEvent) (s : RawCaptureReplay) :
    RoundResult :=
  match s.fenceState with
  | .waiting => .stop s
  | .failed => .fail ({ s with profileFence := none } : RawCaptureReplay).fail
  | .open => openRound round events event { s with profileFence := none }

/-- The loop of a pump, and whether it has failed. -/
def pumpLoop : List Round → ℕ → ℕ → RawCaptureReplay → RawCaptureReplay × Bool
  | [], _, _, s => (s, false)
  | round :: rounds, events, bytes, s =>
    match s.events[s.eventIndex]? with
    | none => (s, false)
    | some event =>
      if kRawCaptureReplayEventsPerPump ≤ events ∨ kRawCaptureReplayBytesPerPump ≤ bytes then (s, false)
      else
        match pumpRound round events event (s.workerRun round.moves) with
        | .stop s => (s, false)
        | .fail s => (s, true)
        | .next s => pumpLoop rounds (events + 1) (bytes + event.bytes.length) s

/-- All events before the index are done when the worker is idle. -/
def noteCompletedInputs (s : RawCaptureReplay) : RawCaptureReplay :=
  if s.workerIdle then { s with completedLuaInputs := s.eventIndex } else s

/-- What a pump does before it looks at the clock. -/
def pumpOutputs (flush : Flush) (s : RawCaptureReplay) : RawCaptureReplay :=
  if s.browses then s else (s.flushOfflineScriptOutputs flush).noteCompletedInputs

/-- After the loop; the last event of the timeline is followed by draining. -/
def afterLoop (choice : DrainChoice) (result : RawCaptureReplay × Bool) : RawCaptureReplay :=
  if result.2 = false ∧ result.1.events.length ≤ result.1.eventIndex then
    drainRawCaptureReplay choice { result.1 with playing := false, phase := .draining }
  else result.1

def pumpPlaying (choice : PumpChoice) (s : RawCaptureReplay) : RawCaptureReplay :=
  if s.playing = false ∨ s.phase = .failed ∨ s.phase = .cancelled then s
  else afterLoop choice.drain (pumpLoop choice.rounds 0 0 { s with phase := .replaying })

def pumpRawCaptureReplay (choice : PumpChoice) (s : RawCaptureReplay) : RawCaptureReplay :=
  if s.loaded = false then s
  else if s.phase = .preparing then s.pumpPreparation
  else if s.phase = .draining then drainRawCaptureReplay choice.drain s
  else pumpPlaying choice (s.pumpOutputs choice.flush)

/-! ### Playing, pausing, stepping and seeking -/

/-- How the preparation of the offline protocol begins. -/
inductive PreparationStart where
  | started
  /-- It cannot begin; a worker without a protocol may be left. -/
  | refused (workerLeft : Bool)

/-- `prepareOfflineReplayProtocol` with a worker of its own -/
def prepareOfflineReplayProtocol (start : PreparationStart) (s : RawCaptureReplay) : RawCaptureReplay :=
  match start with
  | .started =>
    { s with worker := some { commands := [.load] }, phase := .preparing, preparation := true }
  | .refused workerLeft => { s with worker := if workerLeft then some {} else none, phase := .failed }

/-- The state a seek starts from: nothing has been submitted. -/
def seekState (eventIndex : ℕ) (s : RawCaptureReplay) : RawCaptureReplay :=
  { s with
    eventIndex := 0
    legacyByteOffset := 0
    legacyEventStarted := false
    targetEventIndex := min eventIndex s.events.length
    resumeAfterSeek := s.playing
    pacingAfterSeek := s.pacing
    pacing := .fastBatchParse
    playing := decide (0 < min eventIndex s.events.length)
    phase := .paused
    preparation := false
    profileFence := none
    rebuilding := false
    worker := none
    pendingPlotAppends := s.pendingPlotAppends.map fun _ => none
    submitted := []
    delivered := []
    posted := []
    dropped := [] }

/-- `prepareRawCaptureBrowse` discards what waits of the real-time outputs. -/
def prepareRawCaptureBrowse (s : RawCaptureReplay) : RawCaptureReplay :=
  { s with pendingPlotAppends := [], phase := if s.playing then .replaying else .paused }

def seekRawCaptureReplay (eventIndex : ℕ) (start : PreparationStart) (s : RawCaptureReplay) :
    RawCaptureReplay :=
  if s.loaded = false then s
  else if s.browses then (s.seekState eventIndex).prepareRawCaptureBrowse
  else (s.seekState eventIndex).prepareOfflineReplayProtocol start

def playFrom (s : RawCaptureReplay) : RawCaptureReplay :=
  { s with playing := true, phase := if s.phase = .preparing then .preparing else .replaying }

/-- Playing a completed replay begins with a seek to its start, unless that is refused. -/
def playRawCaptureReplay (start : PreparationStart) (s : RawCaptureReplay) : RawCaptureReplay :=
  if s.loaded = false then s
  else if s.phase = .completed then
    if (s.seekRawCaptureReplay 0 start).phase = .failed then s.seekRawCaptureReplay 0 start
    else (s.seekRawCaptureReplay 0 start).playFrom
  else s.playFrom

def pauseRawCaptureReplay (s : RawCaptureReplay) : RawCaptureReplay :=
  { s with
    playing := false
    phase := if s.loaded = true ∧ s.phase ≠ .completed ∧ s.phase ≠ .failed then .paused else s.phase }

/-- The phase after a single step that has succeeded. -/
def afterStep (result : RawCaptureReplay × Bool) : RawCaptureReplay :=
  if result.2 then
    { result.1 with
      phase := if result.1.events.length ≤ result.1.eventIndex then .draining else .paused }
  else result.1

def stepRawCaptureReplay (choice : EventChoice) (s : RawCaptureReplay) : RawCaptureReplay :=
  if s.loaded = false ∨ s.phase = .preparing then s
  else afterStep (replayRawCaptureEventAt choice s.eventIndex { s with playing := false })

/-! ### Runs -/

inductive ReplayStep where
  | worker (move : WorkerMove)
  /-- The rest of the main loop consumes plot appends and adds some of its own. -/
  | appends (kept : List Bool) (added : ℕ)
  | pump (choice : PumpChoice)
  | play (start : PreparationStart)
  | pause
  | step (choice : EventChoice)
  | seek (eventIndex : ℕ) (start : PreparationStart)

def replayStep (s : RawCaptureReplay) : ReplayStep → RawCaptureReplay
  | .worker move => s.workerStep move
  | .appends kept added =>
    { s with
      pendingPlotAppends := keepMarked kept s.pendingPlotAppends ++ List.replicate added none }
  | .pump choice => s.pumpRawCaptureReplay choice
  | .play start => s.playRawCaptureReplay start
  | .pause => s.pauseRawCaptureReplay
  | .step choice => s.stepRawCaptureReplay choice
  | .seek eventIndex start => s.seekRawCaptureReplay eventIndex start

def run (s : RawCaptureReplay) (steps : List ReplayStep) : RawCaptureReplay :=
  steps.foldl replayStep s

/-- A timeline that has just been loaded. -/
def loadRawCaptureReplayTimeline (events : List RawCaptureEvent) (processing : OfflineReplayProcessing)
    (pacing : OfflineReplayPacing) : RawCaptureReplay :=
  if processing = .browseRaw then { events, processing, pacing }
  else
    prepareOfflineReplayProtocol .started { events, processing, pacing }

end RawCaptureReplay

end ProtoScope.App
