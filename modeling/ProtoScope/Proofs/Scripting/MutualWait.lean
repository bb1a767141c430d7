/-
When the worker and the thread that drains it wait for each other.

A call that waits ends once the worker has got to a certain point of its queue.  Nothing is
drained meanwhile, so on the way there each batch must find a place in the output queue as it
is.  `roomFor` counts the places along the commands ahead: each of them may change the limit,
empty the output queue, clear the bytes behind it or become the last one needed.  With room
at every call that waits, no run gets the two threads to wait for each other: the room
ahead is kept by every step of the worker.
-/
import ProtoScope.Proofs.Scripting.RxDelivery
import ProtoScope.Scripting.WorkerWaits

namespace ProtoScope.Scripting

open ProtoScope.Transport ScriptRuntimeWorker

/-- The point at which a wait ends: when the last command is executed, when its outputs are
published, or when the pending bytes have fallen to the low watermark. -/
inductive Awaited where
  | executed
  | published
  | rxLowWatermark (lowWaterBytes : Nat)
deriving DecidableEq, Repr

/-- What decides whether there is room for the outputs of the next commands. -/
structure Outlook where
  outputQueueLimit : Nat
  queued : Nat
  pendingRxBytes : Nat
  activeConnectionId : Option Nat
  /-- a command has cleared the bytes that were queued behind it -/
  cleared : Bool := false

namespace Outlook

def hasRoom (o : Outlook) : Bool :=
  o.outputQueueLimit == 0 || decide (o.queued < o.outputQueueLimit)

def publish (o : Outlook) : Outlook :=
  { o with queued := o.queued + 1 }

def executePlain (o : Outlook) : PlainCommand → Outlook
  | .configure config => { o with outputQueueLimit := config.outputQueueLimit }
  | .budgetSettings _ _ outputLimit _ => { o with outputQueueLimit := outputLimit }
  | .reloadProtocol _ => { o with activeConnectionId := none, cleared := true }
  | .resetStreamReplayState => { o with activeConnectionId := none, cleared := true }
  | .clearRealtimeOutputs => { o with queued := 0 }
  | .open context =>
    { o with
      activeConnectionId :=
        if context.readyForIo then some context.connectionId else o.activeConnectionId }
  | .close context =>
    { o with
      activeConnectionId :=
        if o.activeConnectionId = some context.connectionId then none else o.activeConnectionId
      cleared := true }
  | _ => o

def execute (o : Outlook) : WorkerCommand → Outlook
  | .bytes event =>
    { o with
      pendingRxBytes := o.pendingRxBytes - min o.pendingRxBytes event.bytes.length
      activeConnectionId :=
        if deliversBytes o.activeConnectionId event && event.context.readyForIo
        then some event.context.connectionId
        else o.activeConnectionId }
  | .plain command => o.executePlain command

/-- The command is no longer in the queue when its turn comes. -/
def skips (o : Outlook) : WorkerCommand → Bool
  | .bytes _ => o.cleared
  | .plain _ => false

/-- Executing the command gets the worker to the awaited point. -/
def reaches (awaited : Awaited) (o : Outlook) (command : WorkerCommand)
    (rest : List WorkerCommand) : Bool :=
  match awaited, command with
  | .executed, _ => rest.isEmpty
  | .rxLowWatermark lowWaterBytes, .bytes _ =>
    decide ((o.execute command).pendingRxBytes < o.pendingRxBytes) &&
      decide ((o.execute command).pendingRxBytes ≤ lowWaterBytes)
  | _, _ => false

/-- Up to the awaited point every command that may produce outputs finds a place for them. -/
def roomFor (awaited : Awaited) : Outlook → List WorkerCommand → Bool
  | _, [] => true
  | o, command :: rest =>
    if o.skips command then roomFor awaited o rest
    else if o.reaches awaited command rest then true
    else if mayProduce o.activeConnectionId command then
      (o.execute command).hasRoom && roomFor awaited (o.execute command).publish rest
    else roomFor awaited (o.execute command) rest

end Outlook

/-! ### What the walk depends on -/

/-- The same but for fewer batches in the queue, whatever becomes of the bytes. -/
structure Covers (o less : Outlook) : Prop where
  outputQueueLimit : less.outputQueueLimit = o.outputQueueLimit
  queued : less.queued ≤ o.queued
  activeConnectionId : less.activeConnectionId = o.activeConnectionId

namespace Covers

variable {o less : Outlook}

theorem hasRoom (h : Covers o less) (hroom : o.hasRoom = true) : less.hasRoom = true := by
  obtain ⟨hlimit, hqueued, -⟩ := h
  unfold Outlook.hasRoom at *
  rw [hlimit]
  simp only [Bool.or_eq_true, beq_iff_eq, decide_eq_true_eq] at *
  omega

theorem publish (h : Covers o less) : Covers o.publish less.publish :=
  ⟨h.outputQueueLimit, Nat.succ_le_succ h.queued, h.activeConnectionId⟩

theorem publish_left (h : Covers o less) : Covers o.publish less :=
  ⟨h.outputQueueLimit, Nat.le_succ_of_le h.queued, h.activeConnectionId⟩

theorem executePlain (h : Covers o less) (command : PlainCommand) :
    Covers (o.executePlain command) (less.executePlain command) := by
  obtain ⟨hlimit, hqueued, hactive⟩ := h
  cases command with
  | configure => exact ⟨rfl, hqueued, hactive⟩
  | budgetSettings => exact ⟨rfl, hqueued, hactive⟩
  | reloadProtocol => exact ⟨hlimit, hqueued, rfl⟩
  | resetStreamReplayState => exact ⟨hlimit, hqueued, rfl⟩
  | clearRealtimeOutputs => exact ⟨hlimit, Nat.le_refl 0, hactive⟩
  | «open» context =>
    refine ⟨hlimit, hqueued, ?_⟩
    unfold Outlook.executePlain
    dsimp only
    rw [hactive]
  | close context =>
    refine ⟨hlimit, hqueued, ?_⟩
    unfold Outlook.executePlain
    dsimp only
    rw [hactive]
  | _ => exact ⟨hlimit, hqueued, hactive⟩

theorem execute (h : Covers o less) (command : WorkerCommand) :
    Covers (o.execute command) (less.execute command) := by
  cases command with
  | bytes event =>
    refine ⟨h.outputQueueLimit, h.queued, ?_⟩
    unfold Outlook.execute
    dsimp only
    rw [h.activeConnectionId]
  | plain command => exact h.executePlain command

end Covers

namespace Outlook

variable {awaited : Awaited} {o less : Outlook}

theorem executePlain_cleared (o : Outlook) (command : PlainCommand) (h : o.cleared = true) :
    (o.executePlain command).cleared = true := by
  cases command <;> first | rfl | exact h

theorem executePlain_pendingRxBytes (o : Outlook) (command : PlainCommand) :
    (o.executePlain command).pendingRxBytes = o.pendingRxBytes := by
  cases command <;> rfl

/-- The walk over a command that is still in the queue. -/
theorem roomFor_cons {command : WorkerCommand} {rest : List WorkerCommand}
    (hskips : o.skips command = false) :
    o.roomFor awaited (command :: rest) = true ↔
      (o.reaches awaited command rest = false →
        if mayProduce o.activeConnectionId command then
          (o.execute command).hasRoom = true ∧
            (o.execute command).publish.roomFor awaited rest = true
        else (o.execute command).roomFor awaited rest = true) := by
  rw [roomFor, hskips]
  cases o.reaches awaited command rest <;>
    cases mayProduce o.activeConnectionId command <;> simp

/-- With fewer batches in the queue there is room all the more. -/
theorem roomFor_mono {commands : List WorkerCommand} (h : Covers o less)
    (hpending : less.pendingRxBytes = o.pendingRxBytes) (hcleared : less.cleared = o.cleared)
    (hroom : o.roomFor awaited commands = true) : less.roomFor awaited commands = true := by
  induction commands generalizing o less with
  | nil => rfl
  | cons command rest ih =>
    have hskips : less.skips command = o.skips command := by
      cases command with
      | bytes event => exact hcleared
      | plain command => rfl
    have hpending' : (less.execute command).pendingRxBytes = (o.execute command).pendingRxBytes := by
      cases command with
      | bytes event =>
        unfold execute
        dsimp only
        rw [hpending]
      | plain command =>
        exact (executePlain_pendingRxBytes less command).trans
          (hpending.trans (executePlain_pendingRxBytes o command).symm)
    have hcleared' : (less.execute command).cleared = (o.execute command).cleared := by
      cases command with
      | bytes event => exact hcleared
      | plain command => cases command <;> first | rfl | exact hcleared
    have hreaches : less.reaches awaited command rest = o.reaches awaited command rest := by
      unfold reaches
      rw [hpending, hpending']
    cases hin : o.skips command with
    | true =>
      rw [roomFor, hin, if_pos rfl] at hroom
      rw [roomFor, hskips, hin, if_pos rfl]
      exact ih h hpending hcleared hroom
    | false =>
      rw [roomFor_cons hin] at hroom
      rw [roomFor_cons (hskips.trans hin), hreaches, h.activeConnectionId]
      intro hnot
      specialize hroom hnot
      split
      · rename_i hproduce
        rw [if_pos hproduce] at hroom
        exact ⟨(h.execute command).hasRoom hroom.1,
          ih (h.execute command).publish hpending' hcleared' hroom.2⟩
      · rename_i hproduce
        rw [if_neg hproduce] at hroom
        exact ih (h.execute command) hpending' hcleared' hroom

/-- Once the bytes are cleared, the walk is that over the other commands. -/
theorem roomFor_filter {commands : List WorkerCommand} (h : Covers o less)
    (hcleared : o.cleared = true) (hroom : o.roomFor awaited commands = true) :
    less.roomFor awaited (commands.filter isPlain) = true := by
  induction commands generalizing o less with
  | nil => rfl
  | cons command rest ih =>
    cases command with
    | bytes event =>
      have hskips : o.skips (.bytes event) = true := hcleared
      rw [roomFor, hskips, if_pos rfl] at hroom
      exact ih h hcleared hroom
    | plain command =>
      have hexecute := h.execute (.plain command)
      have hcleared' : (o.execute (.plain command)).cleared = true :=
        executePlain_cleared o command hcleared
      rw [roomFor_cons rfl] at hroom
      rw [List.filter_cons_of_pos rfl, roomFor_cons rfl, h.activeConnectionId]
      intro hnot
      have hreaches : o.reaches awaited (.plain command) rest = false := by
        unfold reaches at *
        cases awaited with
        | executed =>
          cases rest with
          | nil => exact hnot
          | cons => rfl
        | published => rfl
        | rxLowWatermark => rfl
      specialize hroom hreaches
      split
      · rename_i hproduce
        rw [if_pos hproduce] at hroom
        exact ⟨hexecute.hasRoom hroom.1, ih hexecute.publish hcleared' hroom.2⟩
      · rename_i hproduce
        rw [if_neg hproduce] at hroom
        exact ih hexecute hcleared' hroom

end Outlook

namespace WorkerWaits

def view (w : ScriptRuntimeWorker) : Outlook where
  outputQueueLimit := w.config.outputQueueLimit
  queued := w.outputs.length
  pendingRxBytes := w.pendingRxBytes
  activeConnectionId := w.activeConnectionId

/-- The outlook before the next command, with the batch that is being published counted. -/
def outlook (s : WorkerWaits) : Outlook :=
  if s.worker.executed.isSome && hasOutputs s.produced then (view s.worker).publish
  else view s.worker

def ahead (w : ScriptRuntimeWorker) : List WorkerCommand :=
  w.popped.toList ++ w.commands

/-- The point a wait is for; the others are not for a point the worker gets to. -/
def awaited : Wait → Option Awaited
  | .runSync call => some (if call.setsAfterPublish then .published else .executed)
  | .waitIdle => some .published
  | .rxLowWatermark lowWaterBytes => some (.rxLowWatermark lowWaterBytes)
  | .dropped => none
  | .clearPendingRealtimeOutputs => none

/-- The worker does not wait, and has room for all it publishes up to the awaited point. -/
def RoomAhead (s : WorkerWaits) (awaited : Awaited) : Prop :=
  s.publishBlocked = false ∧ s.outlook.roomFor awaited (ahead s.worker) = true

/-- The wait that a step begins, if it begins one. -/
def beginsWait (s : WorkerWaits) (step : WaitStep) : Option Wait :=
  if s.wait.isNone then (s.step step).wait else none

/-- There is room ahead of the wait that a step begins. -/
def HasRoom (s : WorkerWaits) (step : WaitStep) : Prop :=
  ∀ wait ∈ s.beginsWait step, ∀ point ∈ awaited wait, (s.step step).RoomAhead point

instance (s : WorkerWaits) (awaited : Awaited) : Decidable (s.RoomAhead awaited) :=
  inferInstanceAs (Decidable (_ ∧ _))

instance (s : WorkerWaits) (step : WaitStep) : Decidable (HasRoom s step) :=
  inferInstanceAs (Decidable (∀ wait ∈ s.beginsWait step, ∀ point ∈ awaited wait, _))

/-! ### Executing a command -/

section Execute

open ScriptRuntimeWorker

/-- Clearing keeps the other commands, and what is not about RX bytes. -/
theorem clearQueuedRxLocked_frame (w : ScriptRuntimeWorker) :
    w.clearQueuedRxLocked.commands = w.commands.filter isPlain ∧
      w.clearQueuedRxLocked.config = w.config ∧ w.clearQueuedRxLocked.outputs = w.outputs ∧
      w.clearQueuedRxLocked.activeConnectionId = w.activeConnectionId ∧
      w.clearQueuedRxLocked.stopping = w.stopping ∧ w.clearQueuedRxLocked.popped = w.popped ∧
      w.clearQueuedRxLocked.executed = w.executed := by
  rw [clearQueuedRxLocked_eq]
  exact ⟨rfl, rfl, rfl, rfl, rfl, rfl, rfl⟩

/-- What is left of a worker in the outlook, apart from the pending bytes. -/
structure Foresees (o : Outlook) (w before : ScriptRuntimeWorker) : Prop where
  outlook : Covers o (view w)
  commands : w.commands = if o.cleared then before.commands.filter isPlain else before.commands
  pendingRxBytes : o.cleared = false → w.pendingRxBytes = o.pendingRxBytes
  popped : w.popped = before.popped
  executed : w.executed = before.executed
  stopping : w.stopping = before.stopping

theorem executePlain_foresees (w : ScriptRuntimeWorker) (command : PlainCommand) :
    Foresees ((view w).executePlain command) (w.executePlain command) w := by
  cases command with
  | reloadProtocol directory =>
    obtain ⟨hcommands, hconfig, houtputs, -, hstopping, hpopped, hexecuted⟩ :=
      clearQueuedRxLocked_frame w
    exact ⟨⟨congrArg (·.outputQueueLimit) hconfig, Nat.le_of_eq (congrArg List.length houtputs),
      rfl⟩, hcommands, (fun h => by cases h), hpopped, hexecuted, hstopping⟩
  | resetStreamReplayState =>
    obtain ⟨hcommands, hconfig, houtputs, -, hstopping, hpopped, hexecuted⟩ :=
      clearQueuedRxLocked_frame w
    exact ⟨⟨congrArg (·.outputQueueLimit) hconfig, Nat.le_of_eq (congrArg List.length houtputs),
      rfl⟩, hcommands, (fun h => by cases h), hpopped, hexecuted, hstopping⟩
  | close context =>
    let closed : ScriptRuntimeWorker :=
      { w with
        host := w.host ++ [.transportClose context]
        activeConnectionId :=
          if w.activeConnectionId = some context.connectionId then none else w.activeConnectionId }
    have hclosed : w.executePlain (.close context) = closed.clearQueuedRxLocked := by
      unfold executePlain call
      dsimp only
      split
      · rename_i hactive
        simp only [closed, if_pos hactive]
      · rename_i hactive
        simp only [closed, if_neg hactive]
    obtain ⟨hcommands, hconfig, houtputs, hactive, hstopping, hpopped, hexecuted⟩ :=
      clearQueuedRxLocked_frame closed
    rw [hclosed]
    exact ⟨⟨congrArg (·.outputQueueLimit) hconfig, Nat.le_of_eq (congrArg List.length houtputs),
      hactive⟩, hcommands, (fun h => by cases h), hpopped, hexecuted, hstopping⟩
  | «open» context =>
    unfold executePlain
    dsimp only
    split
    · rename_i hready
      refine ⟨⟨rfl, Nat.le_refl _, ?_⟩, rfl, fun _ => rfl, rfl, rfl, rfl⟩
      unfold Outlook.executePlain
      dsimp only
      rw [if_pos hready]
      rfl
    · rename_i hready
      refine ⟨⟨rfl, Nat.le_refl _, ?_⟩, rfl, fun _ => rfl, rfl, rfl, rfl⟩
      unfold Outlook.executePlain
      dsimp only
      rw [if_neg hready]
      rfl
  | _ => exact ⟨⟨rfl, Nat.le_refl _, rfl⟩, rfl, fun _ => rfl, rfl, rfl, rfl⟩

theorem subtractPendingRxBytes_frame (w : ScriptRuntimeWorker) (availableBytes bytes : Nat) :
    ∃ warning, w.subtractPendingRxBytes availableBytes bytes =
      { w with
        pendingRxBytes := w.pendingRxBytes - min w.pendingRxBytes bytes
        rxBackpressureWarningActive := warning } := by
  have hwarning : ∀ (p : Prop) [Decidable p] (w : ScriptRuntimeWorker), ∃ warning,
      (if p then { w with rxBackpressureWarningActive := false } else w) =
        { w with rxBackpressureWarningActive := warning } := by
    intro p _ w
    split
    · exact ⟨false, rfl⟩
    · exact ⟨w.rxBackpressureWarningActive, rfl⟩
  exact hwarning _ { w with pendingRxBytes := w.pendingRxBytes - min w.pendingRxBytes bytes }

theorem handleHostBytesCommand_foresees (w : ScriptRuntimeWorker) (availableBytes : Nat)
    (event : TransportBytesEvent) :
    Foresees ((view w).execute (.bytes event)) (w.handleHostBytesCommand availableBytes event)
      w := by
  obtain ⟨warning, hsubtract⟩ := subtractPendingRxBytes_frame w availableBytes event.bytes.length
  unfold handleHostBytesCommand
  rw [hsubtract]
  dsimp only
  split
  · rename_i hdelivers
    split
    · rename_i hready
      refine ⟨⟨rfl, Nat.le_refl _, ?_⟩, rfl, fun _ => rfl, rfl, rfl, rfl⟩
      have hboth : (deliversBytes (view w).activeConnectionId event &&
          event.context.readyForIo) = true := by
        rw [Bool.and_eq_true]
        exact ⟨hdelivers, hready⟩
      exact (if_pos hboth).symm
    · rename_i hready
      refine ⟨⟨rfl, Nat.le_refl _, ?_⟩, rfl, fun _ => rfl, rfl, rfl, rfl⟩
      refine (if_neg ?_).symm
      rw [Bool.and_eq_true]
      exact fun hboth => hready hboth.2
  · rename_i hdelivers
    refine ⟨⟨rfl, Nat.le_refl _, ?_⟩, rfl, fun _ => rfl, rfl, rfl, rfl⟩
    refine (if_neg ?_).symm
    rw [Bool.and_eq_true]
    exact fun hboth => hdelivers hboth.1

/-- Executing a command does what the outlook says. -/
theorem executeCommand_foresees {w : ScriptRuntimeWorker} {command : WorkerCommand}
    (hpopped : w.popped = some command) (availableBytes : Nat) :
    Foresees ((view w).execute command) (w.executeCommand availableBytes)
      { w with popped := none, executed := some command } := by
  unfold ScriptRuntimeWorker.executeCommand
  rw [hpopped]
  cases command with
  | bytes event =>
    exact handleHostBytesCommand_foresees
      { w with popped := none, executed := some (.bytes event) } availableBytes event
  | plain command =>
    exact executePlain_foresees { w with popped := none, executed := some (.plain command) } command

end Execute

/-! ### The worker's steps keep the room -/

section Thread

variable {s : WorkerWaits} {point : Awaited}

theorem canPublish_of_hasRoom {w : ScriptRuntimeWorker} (batch : ScriptRuntimeOutputBatch)
    (h : (view w).hasRoom = true) : w.canPublish batch = true := by
  unfold Outlook.hasRoom view at h
  unfold canPublish
  simp only [Bool.or_eq_true] at h ⊢
  obtain hlimit | hroom := h
  · exact .inl (.inl (.inr hlimit))
  · exact .inr hroom

theorem canPublish_nothing (w : ScriptRuntimeWorker) : w.canPublish {} = true := by
  unfold canPublish
  rfl

/-- What the walk finds before a command it finds for the worker that has executed it. -/
theorem Foresees.roomFor {o counted less : Outlook} {w before : ScriptRuntimeWorker}
    (h : Foresees o w before) (hcovers : Covers counted less)
    (hcounted : counted.cleared = o.cleared ∧ counted.pendingRxBytes = o.pendingRxBytes)
    (hless : less.cleared = false ∧ less.pendingRxBytes = w.pendingRxBytes)
    (hroom : counted.roomFor point before.commands = true) :
    less.roomFor point w.commands = true := by
  rw [h.commands]
  split
  · rename_i hcleared
    exact Outlook.roomFor_filter hcovers (hcounted.1.trans hcleared) hroom
  · rename_i hcleared
    rw [Bool.not_eq_true] at hcleared
    refine Outlook.roomFor_mono hcovers ?_ ?_ hroom
    · rw [hless.2, hcounted.2]
      exact h.pendingRxBytes hcleared
    · rw [hless.1, hcounted.1, hcleared]

/-- A wait that goes on has not reached its point. -/
theorem reaches_of_not_answered {wait : Wait} {command : WorkerCommand}
    {w before : ScriptRuntimeWorker} (hpoint : awaited wait = some point)
    (h : Foresees ((view before).execute command) w
      { before with popped := none, executed := some command })
    (hanswered : answeredByExecute (some wait) command before w = false) :
    (view before).reaches point command before.commands = false := by
  have hempty : before.commands = [] → w.commands = [] := by
    intro hnil
    rw [h.commands, hnil]
    split <;> rfl
  cases wait with
  | runSync call =>
    cases hafter : call.setsAfterPublish with
    | true =>
      rw [awaited, hafter, if_pos rfl] at hpoint
      cases hpoint
      rfl
    | false =>
      rw [awaited, hafter, if_neg Bool.false_ne_true] at hpoint
      cases hpoint
      unfold answeredByExecute at hanswered
      dsimp only at hanswered
      rw [hafter, Bool.not_false, Bool.true_and] at hanswered
      cases hcommands : before.commands with
      | nil =>
        rw [hempty hcommands] at hanswered
        cases hanswered
      | cons => rfl
  | waitIdle =>
    cases hpoint
    rfl
  | rxLowWatermark lowWaterBytes =>
    cases hpoint
    cases command with
    | bytes event =>
      have hpending : w.pendingRxBytes = ((view before).execute (.bytes event)).pendingRxBytes :=
        h.pendingRxBytes rfl
      unfold answeredByExecute at hanswered
      dsimp only at hanswered
      rw [hpending] at hanswered
      exact hanswered
    | plain command => rfl
  | dropped => cases hpoint
  | clearPendingRealtimeOutputs => cases hpoint

theorem popCommand_roomAhead (h : s.RoomAhead point) :
    RoomAhead { s with worker := s.worker.popCommand } point := by
  unfold popCommand
  split
  · rename_i hpopped hexecuted hcommands
    obtain ⟨-, hroom⟩ := h
    unfold outlook ahead at hroom
    rw [hpopped, hcommands, hexecuted] at hroom
    refine ⟨?_, ?_⟩
    · unfold publishBlocked
      dsimp only
      rw [hexecuted]
      rfl
    · unfold outlook ahead
      dsimp only
      rw [hexecuted]
      exact hroom
  · exact h

theorem executeCommand_roomAhead {wait : Wait} (hwait : s.wait = some wait)
    (hpoint : awaited wait = some point) (h : s.RoomAhead point)
    (hturns : s.worker.popped = none ∨ s.worker.executed = none) (availableBytes : Nat)
    (batch : ScriptRuntimeOutputBatch)
    (hanswered : (s.executeCommand availableBytes batch).answered = false) :
    (s.executeCommand availableBytes batch).RoomAhead point := by
  cases hpopped : s.worker.popped with
  | none =>
    have hsame : s.executeCommand availableBytes batch = s := by
      unfold WorkerWaits.executeCommand
      rw [hpopped]
    rw [hsame]
    exact h
  | some command =>
    have hexecuted : s.worker.executed = none := by
      obtain hnone | hnone := hturns
      · rw [hpopped] at hnone
        cases hnone
      · exact hnone
    obtain ⟨-, hroom⟩ := h
    unfold outlook ahead at hroom
    rw [hpopped, hexecuted, Option.isSome_none, Bool.false_and, if_neg Bool.false_ne_true,
      Option.toList_some, List.singleton_append] at hroom
    have hview := executeCommand_foresees hpopped availableBytes
    unfold WorkerWaits.executeCommand at hanswered ⊢
    rw [hpopped] at hanswered ⊢
    dsimp only at hanswered ⊢
    rw [Bool.or_eq_false_iff, hwait] at hanswered
    have hreaches := reaches_of_not_answered hpoint hview hanswered.2
    generalize s.worker.executeCommand availableBytes = w at hview hanswered ⊢
    have hskips : (view s.worker).skips command = false := by cases command <;> rfl
    have hwalk := (Outlook.roomFor_cons hskips).mp hroom hreaches
    have hahead : ahead w = w.commands := by
      unfold ahead
      rw [hview.popped]
      rfl
    unfold RoomAhead
    rw [hahead]
    cases hproduce : mayProduce s.worker.activeConnectionId command with
    | true =>
      rw [if_pos rfl]
      rw [if_pos (show mayProduce (view s.worker).activeConnectionId command = true from hproduce)]
        at hwalk
      obtain ⟨hfits, hrest⟩ := hwalk
      refine ⟨?_, ?_⟩
      · unfold publishBlocked
        dsimp only
        rw [canPublish_of_hasRoom batch (hview.outlook.hasRoom hfits), Bool.not_true, Bool.and_false]
      · unfold outlook
        dsimp only
        split
        · exact hview.roomFor hview.outlook.publish ⟨rfl, rfl⟩ ⟨rfl, rfl⟩ hrest
        · exact hview.roomFor hview.outlook.publish_left ⟨rfl, rfl⟩ ⟨rfl, rfl⟩ hrest
    | false =>
      rw [if_neg Bool.false_ne_true]
      rw [if_neg (show ¬ mayProduce (view s.worker).activeConnectionId command = true from by
        rw [Bool.not_eq_true]; exact hproduce)] at hwalk
      refine ⟨?_, ?_⟩
      · unfold publishBlocked
        dsimp only
        rw [canPublish_nothing, Bool.not_true, Bool.and_false]
      · unfold outlook
        dsimp only
        rw [if_neg (show ¬ (w.executed.isSome && hasOutputs {}) = true from by
          rw [show hasOutputs {} = false from rfl, Bool.and_false]; exact Bool.false_ne_true)]
        exact hview.roomFor hview.outlook ⟨rfl, rfl⟩ ⟨rfl, rfl⟩ hwalk

/-- Publishing adds the batch, if it has outputs, and ends the command. -/
theorem publish_spec {w : ScriptRuntimeWorker} {batch : ScriptRuntimeOutputBatch}
    (hexecuted : w.executed.isSome = true) (hcan : w.canPublish batch = true) :
    (w.publish batch).executed = none ∧ (w.publish batch).popped = w.popped ∧
      (w.publish batch).commands = w.commands ∧ (w.publish batch).stopping = w.stopping ∧
      (w.stopping = false → view (w.publish batch) =
        if hasOutputs batch then (view w).publish else view w) := by
  obtain ⟨command, hcommand⟩ := Option.isSome_iff_exists.mp hexecuted
  unfold ScriptRuntimeWorker.publish ScriptRuntimeWorker.publishOutputs
  rw [hcommand]
  dsimp only
  rw [if_pos hcan]
  split
  · rename_i hskip
    refine ⟨rfl, rfl, rfl, rfl, fun hstopping => ?_⟩
    rw [hstopping, Bool.and_false, Bool.or_false, Bool.not_eq_true'] at hskip
    rw [hskip, if_neg Bool.false_ne_true]
    rfl
  · rename_i hadd
    refine ⟨rfl, rfl, rfl, rfl, fun _ => ?_⟩
    rw [Bool.not_eq_true, Bool.or_eq_false_iff, Bool.not_eq_false'] at hadd
    rw [hadd.1, if_pos rfl]
    unfold view Outlook.publish
    dsimp only
    rw [List.length_append]
    rfl

theorem publish_roomAhead (h : s.RoomAhead point) (hstopping : s.worker.stopping = false) :
    s.publish.RoomAhead point := by
  unfold WorkerWaits.publish
  split
  · rename_i hcan
    rw [Bool.and_eq_true] at hcan
    obtain ⟨-, hroom⟩ := h
    unfold outlook at hroom
    rw [hcan.1, Bool.true_and] at hroom
    obtain ⟨hexecuted, hpopped, hcommands, -, hview⟩ := publish_spec hcan.1 hcan.2
    unfold RoomAhead publishBlocked outlook ahead
    dsimp only
    rw [hexecuted, hpopped, hcommands, hview hstopping]
    exact ⟨rfl, hroom⟩
  · exact h

end Thread

/-! ### Whole runs -/

section Run

/-- What holds between the two threads. -/
structure Unblocked (s : WorkerWaits) : Prop where
  turns : s.worker.popped = none ∨ s.worker.executed = none
  dropped : s.wait = some .dropped → s.worker.stopping = true
  room : ∀ wait point, s.wait = some wait → awaited wait = some point → s.answered = false →
    s.worker.stopping = true ∨ s.RoomAhead point

theorem unblocked_initial : Unblocked {} where
  turns := .inl rfl
  dropped := fun h => by cases h
  room := fun _ _ h => by cases h

variable {s : WorkerWaits}

theorem Unblocked.not_mutualWait (h : Unblocked s) : s.mutualWait = false := by
  cases hblocked : s.publishBlocked with
  | false =>
    unfold mutualWait
    rw [hblocked, Bool.false_and]
  | true =>
    have hstopping : s.worker.stopping = false := by
      unfold publishBlocked canPublish at hblocked
      simp only [Bool.and_eq_true, Bool.not_eq_true', Bool.or_eq_false_iff] at hblocked
      exact hblocked.2.1.2
    have hnot : ∀ wait point, s.wait = some wait → awaited wait = some point →
        s.answered = true := by
      intro wait point hwait hpoint
      cases hanswered : s.answered with
      | true => rfl
      | false =>
        obtain hstops | hroom := h.room wait point hwait hpoint hanswered
        · rw [hstopping] at hstops
          cases hstops
        · rw [hroom.1] at hblocked
          cases hblocked
    unfold mutualWait waitBlocked
    rw [hblocked, Bool.true_and]
    cases hwait : s.wait with
    | none => rfl
    | some wait =>
      cases wait with
      | runSync call => exact congrArg not (hnot _ _ hwait rfl)
      | waitIdle => exact congrArg not (hnot _ _ hwait rfl)
      | rxLowWatermark lowWaterBytes => exact congrArg not (hnot _ _ hwait rfl)
      | dropped =>
        have hstops := h.dropped hwait
        rw [hstopping] at hstops
        cases hstops
      | clearPendingRealtimeOutputs => rfl

/-- Two workers with the same turn of the thread. -/
def SameTurn (w w' : ScriptRuntimeWorker) : Prop :=
  w'.popped = w.popped ∧ w'.executed = w.executed

theorem turn_of_warns {w w' : ScriptRuntimeWorker} (h : Warns w w') : SameTurn w w' := by
  obtain ⟨_, _, rfl⟩ := h
  exact ⟨rfl, rfl⟩

theorem pushCommand_turn (w : ScriptRuntimeWorker) (command : PlainCommand) :
    SameTurn w (w.pushCommand command) ∧ (w.pushCommand command).stopping = w.stopping := by
  unfold pushCommand
  split <;> exact ⟨⟨rfl, rfl⟩, rfl⟩

theorem freeCall_turn (w : ScriptRuntimeWorker) (call : FreeCall) :
    SameTurn w (freeCall w call) := by
  cases call with
  | pushCommand command =>
    exact (pushCommand_turn w command).1
  | pushBytes event mergeAdjacent =>
    unfold freeCall pushBytes
    dsimp only
    split <;> exact ⟨rfl, rfl⟩
  | tryPushBytes availableBytes event maxBytes mergeAdjacent =>
    obtain ⟨-, hwarns⟩ | hwarns :=
      tryPushBytes_warns w availableBytes event maxBytes mergeAdjacent
    · exact turn_of_warns hwarns
    · obtain ⟨hpopped, hexecuted⟩ := turn_of_warns hwarns
      exact ⟨hpopped, hexecuted⟩
  | drainOutputs => exact ⟨rfl, rfl⟩
  | drainOneOutput => exact ⟨rfl, rfl⟩

theorem Unblocked.turns_of_same (h : Unblocked s) {w : ScriptRuntimeWorker}
    (hsame : SameTurn s.worker w) : w.popped = none ∨ w.executed = none := by
  rw [hsame.1, hsame.2]
  exact h.turns

/-- A step that leaves no wait behind has only to keep the turns. -/
theorem Unblocked.of_no_wait {w : ScriptRuntimeWorker}
    {produced : ScriptRuntimeOutputBatch} {answered : Bool}
    (h : w.popped = none ∨ w.executed = none) : Unblocked ⟨w, produced, none, answered⟩ where
  turns := h
  dropped := fun hwait => by cases hwait
  room := fun _ _ hwait => by cases hwait

/-- A command that is posted and waited for, with room ahead. -/
theorem postAndWait_unblocked (h : Unblocked s) (command : PlainCommand) (wait : Wait)
    (hdropped : wait ≠ .dropped)
    (hroom : ∀ point, awaited wait = some point → s.worker.stopping = false →
      (s.postAndWait command wait).RoomAhead point) :
    Unblocked (s.postAndWait command wait) := by
  obtain ⟨hturn, hstops⟩ := pushCommand_turn s.worker command
  cases hstopping : s.worker.stopping with
  | true =>
    rw [hstopping] at hstops
    exact ⟨h.turns_of_same hturn, fun _ => hstops, fun _ _ _ _ _ => .inl hstops⟩
  | false =>
    refine ⟨h.turns_of_same hturn, fun hwait => ?_, fun wait' point hwait hpoint _ => ?_⟩
    · unfold postAndWait at hwait
      rw [hstopping] at hwait
      exact absurd (Option.some.inj hwait) hdropped
    · have heq : wait = wait' := by
        unfold postAndWait at hwait
        rw [hstopping] at hwait
        exact Option.some.inj hwait
      rw [← heq] at hpoint
      exact .inr (hroom point hpoint hstopping)

theorem beginsWait_of_none {step : WaitStep} (hnone : s.wait = none) :
    s.beginsWait step = (s.step step).wait := by
  unfold beginsWait
  rw [hnone]
  rfl

/-- A call that posts a command and waits for it. -/
theorem postStep_unblocked (h : Unblocked s) {step : WaitStep} (hroom : HasRoom s step)
    (hnone : s.wait = none) (command : PlainCommand) (wait : Wait) (hdropped : wait ≠ .dropped)
    (hstep : s.step step = s.postAndWait command wait) : Unblocked (s.step step) := by
  rw [hstep]
  refine postAndWait_unblocked h command wait hdropped fun point hpoint hstopping => ?_
  rw [← hstep]
  refine hroom wait ?_ point hpoint
  rw [beginsWait_of_none hnone, hstep]
  unfold postAndWait
  rw [hstopping]
  rfl

theorem resume_unblocked (h : Unblocked s) : Unblocked s.resume := by
  unfold resume
  split
  · exact h
  · split
    · exact .of_no_wait h.turns
    · split
      · exact .of_no_wait h.turns
      · exact h
  · split
    · exact .of_no_wait h.turns
    · exact h

theorem giveUp_unblocked (h : Unblocked s) : Unblocked s.giveUp := by
  unfold giveUp
  split
  · split
    · exact .of_no_wait h.turns
    · exact h
  · exact .of_no_wait h.turns
  · exact .of_no_wait h.turns
  · exact h

theorem waitingStep_unblocked (h : Unblocked s) (step : WaitStep) :
    Unblocked (s.waitingStep step) := by
  unfold waitingStep
  split
  · split
    · rename_i hclearing
      refine ⟨h.turns, fun hwait => ?_, fun wait point hwait hpoint _ => ?_⟩
      · rw [hclearing] at hwait
        cases hwait
      · rw [hclearing] at hwait
        cases hwait
        cases hpoint
    · exact h
  · exact resume_unblocked h
  · exact giveUp_unblocked h
  · exact h

/-- The wait for the low watermark begins with room ahead. -/
theorem waitUntilRxQueueBelowLowWatermark_unblocked (h : Unblocked s) (hnone : s.wait = none)
    (availableBytes : Nat)
    (hroom : HasRoom s (.waitUntilRxQueueBelowLowWatermark availableBytes)) :
    Unblocked (s.waitUntilRxQueueBelowLowWatermark availableBytes) := by
  have hturns := h.turns_of_same (turn_of_warns (beginRxWait_warns s.worker availableBytes))
  have hstep : s.step (.waitUntilRxQueueBelowLowWatermark availableBytes) =
      s.waitUntilRxQueueBelowLowWatermark availableBytes := by
    unfold step callStep
    rw [hnone]
    rfl
  unfold HasRoom at hroom
  rw [beginsWait_of_none hnone, hstep] at hroom
  unfold waitUntilRxQueueBelowLowWatermark at hroom ⊢
  split
  · rename_i habove
    rw [if_pos habove] at hroom
    refine ⟨hturns, (fun hwait => by cases hwait), fun wait point hwait hpoint _ => ?_⟩
    exact .inr (hroom wait hwait point hpoint)
  · refine ⟨hturns, fun hwait => ?_, fun wait _ hwait _ _ => ?_⟩
    · rw [hnone] at hwait
      cases hwait
    · rw [hnone] at hwait
      cases hwait

theorem clearPendingRealtimeOutputs_unblocked (h : Unblocked s) :
    Unblocked s.clearPendingRealtimeOutputs := by
  unfold clearPendingRealtimeOutputs
  split
  · rename_i hstopping
    exact ⟨h.turns, fun _ => hstopping, fun _ _ _ _ _ => .inl hstopping⟩
  · refine postAndWait_unblocked h _ _ (fun hwait => by cases hwait) fun _ hpoint _ => ?_
    cases hpoint

/-- Executing takes its turn and leaves the stop request as it is. -/
theorem executeCommand_frame (s : WorkerWaits) (availableBytes : Nat)
    (batch : ScriptRuntimeOutputBatch) :
    (s.executeCommand availableBytes batch).wait = s.wait ∧
      (s.executeCommand availableBytes batch).worker.stopping = s.worker.stopping ∧
      (s.worker.popped = none ∧ s.executeCommand availableBytes batch = s ∨
        (s.executeCommand availableBytes batch).worker.popped = none) := by
  unfold WorkerWaits.executeCommand
  cases hpopped : s.worker.popped with
  | none => exact ⟨rfl, rfl, .inl ⟨rfl, rfl⟩⟩
  | some command =>
    have hview := executeCommand_foresees hpopped availableBytes
    exact ⟨rfl, hview.stopping, .inr hview.popped⟩

theorem executeCommand_unblocked (h : Unblocked s) (availableBytes : Nat)
    (batch : ScriptRuntimeOutputBatch) : Unblocked (s.executeCommand availableBytes batch) := by
  obtain ⟨hwait, hstopping, ⟨-, hsame⟩ | hpopped⟩ := executeCommand_frame s availableBytes batch
  · rw [hsame]
    exact h
  · refine ⟨.inl hpopped, fun hdropped => ?_, fun wait point hsome hpoint hanswered => ?_⟩
    · rw [hstopping]
      exact h.dropped (hwait.symm.trans hdropped)
    · rw [hwait] at hsome
      have hbefore : s.answered = false := by
        unfold WorkerWaits.executeCommand at hanswered
        split at hanswered
        · exact hanswered
        · exact (Bool.or_eq_false_iff.mp hanswered).1
      obtain hstops | hahead := h.room wait point hsome hpoint hbefore
      · exact .inl (hstopping.trans hstops)
      · exact .inr (executeCommand_roomAhead hsome hpoint hahead h.turns availableBytes batch
          hanswered)

theorem popCommand_unblocked (h : Unblocked s) :
    Unblocked { s with worker := s.worker.popCommand } := by
  have hframe : (s.worker.popCommand.popped = none ∨ s.worker.popCommand.executed = none) ∧
      s.worker.popCommand.stopping = s.worker.stopping := by
    unfold popCommand
    split
    · rename_i hexecuted _
      exact ⟨.inr hexecuted, rfl⟩
    · exact ⟨h.turns, rfl⟩
  refine ⟨hframe.1, fun hdropped => ?_, fun wait point hwait hpoint hanswered => ?_⟩
  · exact hframe.2.trans (h.dropped hdropped)
  · obtain hstops | hahead := h.room wait point hwait hpoint hanswered
    · exact .inl (hframe.2.trans hstops)
    · exact .inr (popCommand_roomAhead hahead)

theorem publish_unblocked (h : Unblocked s) : Unblocked s.publish := by
  have hframe : s.publish.wait = s.wait ∧ s.publish.worker.stopping = s.worker.stopping ∧
      (s.publish.worker.popped = none ∨ s.publish.worker.executed = none) ∧
      (s.publish.answered = false → s.answered = false) := by
    unfold WorkerWaits.publish
    split
    · rename_i hcan
      rw [Bool.and_eq_true] at hcan
      obtain ⟨hexecuted, -, -, hstopping, -⟩ := publish_spec hcan.1 hcan.2
      exact ⟨rfl, hstopping, .inr hexecuted, fun hanswered => (Bool.or_eq_false_iff.mp hanswered).1⟩
    · exact ⟨rfl, rfl, h.turns, id⟩
  obtain ⟨hwait, hstopping, hturns, hanswered⟩ := hframe
  refine ⟨hturns, fun hdropped => ?_, fun wait point hsome hpoint hnot => ?_⟩
  · exact hstopping.trans (h.dropped (hwait.symm.trans hdropped))
  · cases hstops : s.worker.stopping with
    | true => exact .inl (hstopping.trans hstops)
    | false =>
      obtain hyes | hahead := h.room wait point (hwait.symm.trans hsome) hpoint (hanswered hnot)
      · rw [hstops] at hyes
        cases hyes
      · exact .inr (publish_roomAhead hahead hstops)

/-- **One step.**  No step of the worker uses up the room ahead of a wait. -/
theorem step_unblocked (h : Unblocked s) (step : WaitStep) (hroom : HasRoom s step) :
    Unblocked (s.step step) := by
  have hcall : ∀ call : WaitStep, s.step call =
      (if s.wait.isNone then s.callStep call else s.waitingStep call) →
      (s.wait = none → Unblocked (s.callStep call)) → Unblocked (s.step call) := by
    intro call heq hnone
    rw [heq]
    split
    · rename_i hwait
      exact hnone (Option.isNone_iff_eq_none.mp hwait)
    · exact waitingStep_unblocked h call
  cases step with
  | free call =>
    refine hcall _ rfl fun hnone => ?_
    refine ⟨h.turns_of_same (freeCall_turn s.worker call), fun hwait => ?_,
      fun _ _ hwait _ _ => ?_⟩
    · unfold callStep at hwait
      rw [hnone] at hwait
      cases hwait
    · unfold callStep at hwait
      rw [hnone] at hwait
      cases hwait
  | runSync call =>
    refine hcall _ rfl fun hnone => ?_
    have hstep : s.step (.runSync call) = s.postAndWait call.command (.runSync call) := by
      unfold WorkerWaits.step
      rw [hnone]
      rfl
    rw [show s.callStep (.runSync call) = s.step (.runSync call) from hstep.symm]
    exact postStep_unblocked h hroom hnone _ _ (fun heq => by cases heq) hstep
  | waitIdle =>
    refine hcall _ rfl fun hnone => ?_
    have hstep : s.step .waitIdle = s.postAndWait .idle .waitIdle := by
      unfold WorkerWaits.step
      rw [hnone]
      rfl
    rw [show s.callStep .waitIdle = s.step .waitIdle from hstep.symm]
    exact postStep_unblocked h hroom hnone _ _ (fun heq => by cases heq) hstep
  | waitUntilRxQueueBelowLowWatermark availableBytes =>
    refine hcall _ rfl fun hnone => ?_
    exact waitUntilRxQueueBelowLowWatermark_unblocked h hnone availableBytes hroom
  | clearPendingRealtimeOutputs =>
    exact hcall _ rfl fun _ => clearPendingRealtimeOutputs_unblocked h
  | resume => exact hcall _ rfl fun _ => h
  | giveUp => exact hcall _ rfl fun _ => h
  | popCommand => exact popCommand_unblocked h
  | executeCommand availableBytes batch => exact executeCommand_unblocked h availableBytes batch
  | publish => exact publish_unblocked h
  | requestStop => exact ⟨h.turns, fun _ => rfl, fun _ _ _ _ _ => .inl rfl⟩

/-- Every step of a run with the state before it. -/
def trace : WorkerWaits → List WaitStep → List (WorkerWaits × WaitStep)
  | _, [] => []
  | s, step :: steps => (s, step) :: trace (s.step step) steps

theorem run_unblocked (steps : List WaitStep) {s : WorkerWaits} (h : Unblocked s)
    (hroom : ∀ x ∈ trace s steps, HasRoom x.1 x.2) : Unblocked (steps.foldl step s) := by
  induction steps generalizing s with
  | nil => exact h
  | cons step steps ih =>
    have hstep := step_unblocked h step (hroom (s, step) List.mem_cons_self)
    exact ih hstep fun x hx => hroom x (List.mem_cons_of_mem _ hx)

theorem trace_of_append (before after : List WaitStep) (s : WorkerWaits) {x : WorkerWaits × WaitStep}
    (h : x ∈ trace s before) : x ∈ trace s (before ++ after) := by
  induction before generalizing s with
  | nil => cases h
  | cons step before ih =>
    obtain rfl | h := List.mem_cons.mp h
    · exact List.mem_cons_self
    · exact List.mem_cons_of_mem _ (ih (s.step step) h)

/-- **No mutual wait.**  In every run in which each wait begins with room ahead, no state
reached has the worker waiting for a place in the output queue while the draining thread
waits for the worker. -/
theorem no_mutual_wait (steps : List WaitStep) (hroom : ∀ x ∈ trace {} steps, HasRoom x.1 x.2) :
    ∀ before after, steps = before ++ after → mutualWait (run before) = false := by
  rintro before after rfl
  refine (run_unblocked before unblocked_initial fun x hx => ?_).not_mutualWait
  exact hroom x (trace_of_append before after {} hx)

/-- One turn of the worker, with one line for the log. -/
def loggingTurn : List WaitStep :=
  [.popCommand, .executeCommand 0 { logs := [{ level := "info", message := "" }] }, .publish]

/-- A queue for one batch, filled, drained and filled again by a call that waits. -/
def drainedInTime : List WaitStep :=
  [.free (.pushCommand (.budgetSettings 0 0 1 0))] ++ loggingTurn ++
    [.free (.pushCommand (.tick 0))] ++ loggingTurn ++
    [.free .drainOutputs, .runSync .setControlValue] ++ loggingTurn ++ [.resume]

theorem drainedInTime_no_mutual_wait : mutualWait (run drainedInTime) = false :=
  no_mutual_wait drainedInTime (by decide) drainedInTime [] (List.append_nil _).symm

/-- The queue is full and another batch is waiting when the call is made. -/
def filledBeforeCall : List WaitStep :=
  [.free (.pushCommand (.budgetSettings 0 0 1 0))] ++ loggingTurn ++
    [.free (.pushCommand (.tick 0))] ++ loggingTurn ++
    [.free (.pushCommand (.tick 1))] ++ loggingTurn ++ [.runSync .setControlValue]

theorem mutual_wait_reachable :
    ¬ ∀ steps : List WaitStep, mutualWait (run steps) = false := by
  intro h
  have hfilled := h filledBeforeCall
  revert hfilled
  decide

end Run

end WorkerWaits

end ProtoScope.Scripting
