/-
The thread that drains the worker's outputs, and where it waits for the worker.

One thread of the program posts the commands and drains the outputs.  Most of its calls only
post; some wait: for the promise of a command they post, for the worker to be idle, or, after
posting bytes, for the RX queue to fall to its low watermark.  While the thread waits it
drains nothing, except in `clearPendingRealtimeOutputs`, which drains until its command is
done.

What the callbacks of a command produce is an argument of the step that executes it, and so
is the moment at which a wait ends or is given up.
-/
import ProtoScope.Scripting.ScriptRuntimeWorker

namespace ProtoScope.Scripting

open ProtoScope.Transport

/-- The calls that wait for the promise of their own command. -/
inductive SyncCall where
  | loadProtocolDirectory (directory : String)
  | setControlValue
  | requestOscilloscopeToggle
  | applyStreamRuntimeProfileEvent
  | resetStreamReplayState
deriving DecidableEq, Repr

namespace SyncCall

def command : SyncCall → PlainCommand
  | .loadProtocolDirectory directory => .reloadProtocol directory
  | .setControlValue => .hostCall "setControlValue"
  | .requestOscilloscopeToggle => .hostCall "requestOscilloscopeToggle"
  | .applyStreamRuntimeProfileEvent => .hostCall "applyStreamRuntimeProfileEvent"
  | .resetStreamReplayState => .resetStreamReplayState

/-- The promise of a toggle is kept back until the outputs are published; the others are set
while the command is executed. -/
def setsAfterPublish : SyncCall → Bool
  | .requestOscilloscopeToggle => true
  | _ => false

/-- `runSync` gives up after 30 s; `loadProtocolDirectory` waits on the future itself. -/
def timesOut : SyncCall → Bool
  | .loadProtocolDirectory _ => false
  | _ => true

end SyncCall

inductive Wait where
  | runSync (call : SyncCall)
  | waitIdle
  | rxLowWatermark (lowWaterBytes : Nat)
  /-- for a command that was not posted, as the worker was stopping -/
  | dropped
  | clearPendingRealtimeOutputs
deriving DecidableEq, Repr

structure WorkerWaits where
  worker : ScriptRuntimeWorker := {}
  /-- the outputs of the command that is executed -/
  produced : ScriptRuntimeOutputBatch := {}
  wait : Option Wait := none
  /-- the promise is set, or the wait has been notified and found its condition true -/
  answered : Bool := false

/-- Whether executing the command leaves outputs in the host.  The bytes that are passed over
and the commands that only set something do not. -/
def mayProduce (activeConnectionId : Option Nat) : WorkerCommand → Bool
  | .bytes event => ScriptRuntimeWorker.deliversBytes activeConnectionId event
  | .plain (.configure _) => false
  | .plain (.budgetSettings ..) => false
  | .plain .resetStreamReplayState => false
  | .plain .clearRealtimeOutputs => false
  | .plain (.requestAwaitingCompletion _) => false
  | .plain .idle => false
  | .plain (.hostCall name) => name != "setFileIoConfig"
  | .plain _ => true

namespace WorkerWaits

/-! ### The draining thread -/

/-- Posts a command and waits; a worker that is stopping takes no command. -/
def postAndWait (s : WorkerWaits) (command : PlainCommand) (wait : Wait) : WorkerWaits :=
  { s with
    worker := s.worker.pushCommand command
    wait := some (if s.worker.stopping then .dropped else wait)
    answered := false }

def runSync (s : WorkerWaits) (call : SyncCall) : WorkerWaits :=
  s.postAndWait call.command (.runSync call)

def waitIdle (s : WorkerWaits) : WorkerWaits :=
  s.postAndWait .idle .waitIdle

/-- Whether `waitUntilRxQueueBelowLowWatermark` has to wait. -/
def aboveHighWatermark (w : ScriptRuntimeWorker) (availableBytes : Nat) : Bool :=
  let (highWaterBytes, _) := ScriptRuntimeWorker.waitingWatermarks w.config availableBytes
  !(rxQueueBudgetBytes w.config availableBytes == 0) && !(highWaterBytes == 0) &&
    decide (highWaterBytes < w.pendingRxBytes) && !w.stopping

def waitUntilRxQueueBelowLowWatermark (s : WorkerWaits) (availableBytes : Nat) : WorkerWaits :=
  if aboveHighWatermark s.worker availableBytes then
    { s with
      worker := s.worker.beginRxWait availableBytes
      wait := some (.rxLowWatermark
        (ScriptRuntimeWorker.waitingWatermarks s.worker.config availableBytes).2)
      answered := false }
  else { s with worker := s.worker.beginRxWait availableBytes }

def clearPendingRealtimeOutputs (s : WorkerWaits) : WorkerWaits :=
  if s.worker.stopping then { s with worker := s.worker.drainOutputs }
  else s.postAndWait .clearRealtimeOutputs .clearPendingRealtimeOutputs

/-- The wait ends.  A condition variable may also wake without being notified. -/
def resume (s : WorkerWaits) : WorkerWaits :=
  match s.wait with
  | none => s
  | some (.rxLowWatermark lowWaterBytes) =>
    if s.worker.pendingRxBytes ≤ lowWaterBytes then
      { s with
        worker := { s.worker with rxBackpressureWarningActive := false }
        wait := none }
    else if s.worker.stopping then { s with wait := none }
    else s
  | some _ => if s.answered then { s with wait := none } else s

/-- Where the promise stays unset for too long, or is gone, the wait ends with an exception. -/
def giveUp (s : WorkerWaits) : WorkerWaits :=
  match s.wait with
  | some (.runSync call) => if call.timesOut then { s with wait := none } else s
  | some .waitIdle => { s with wait := none }
  | some .dropped => { s with wait := none }
  | _ => s

/-! ### The worker's thread -/

/-- Whether executing the command ends the wait.  The command waited for is the last one, as
nothing is posted during a wait; RX waiters are notified where bytes leave the queue for
the host, not where a command clears them. -/
def answeredByExecute (wait : Option Wait) (command : WorkerCommand)
    (before after : ScriptRuntimeWorker) : Bool :=
  match wait, command with
  | some (.runSync call), _ => !call.setsAfterPublish && after.commands.isEmpty
  | some .clearPendingRealtimeOutputs, _ => after.commands.isEmpty
  | some (.rxLowWatermark lowWaterBytes), .bytes _ =>
    decide (after.pendingRxBytes < before.pendingRxBytes) &&
      decide (after.pendingRxBytes ≤ lowWaterBytes)
  | _, _ => false

def answeredByPublish (wait : Option Wait) (worker : ScriptRuntimeWorker) : Bool :=
  match wait with
  | some (.runSync call) => call.setsAfterPublish && worker.commands.isEmpty
  | some .waitIdle => worker.commands.isEmpty
  | _ => false

def executeCommand (s : WorkerWaits) (availableBytes : Nat) (batch : ScriptRuntimeOutputBatch) :
    WorkerWaits :=
  match s.worker.popped with
  | none => s
  | some command =>
    let worker := s.worker.executeCommand availableBytes
    { s with
      worker := worker
      produced := if mayProduce s.worker.activeConnectionId command then batch else {}
      answered := s.answered || answeredByExecute s.wait command s.worker worker }

/-- The worker waits in `publishOutputs` for a place in the output queue. -/
def publishBlocked (s : WorkerWaits) : Bool :=
  s.worker.executed.isSome && !s.worker.canPublish s.produced

def publish (s : WorkerWaits) : WorkerWaits :=
  if s.worker.executed.isSome && s.worker.canPublish s.produced then
    { s with
      worker := s.worker.publish s.produced
      answered := s.answered || answeredByPublish s.wait s.worker }
  else s

def requestStop (s : WorkerWaits) : WorkerWaits :=
  { s with worker := s.worker.requestStop }

/-! ### Runs -/

/-- The calls of the draining thread that do not wait. -/
inductive FreeCall where
  | pushCommand (command : PlainCommand)
  | pushBytes (event : TransportBytesEvent) (mergeAdjacent : Bool)
  | tryPushBytes (availableBytes : Nat) (event : TransportBytesEvent) (maxBytes : Nat)
      (mergeAdjacent : Bool)
  | drainOutputs
  | drainOneOutput

/-- What follows the posting in `pushBytes`, `waitIdle` or the wait for the low watermark, is
a step of its own: the worker may run in between. -/
inductive WaitStep where
  | free (call : FreeCall)
  | runSync (call : SyncCall)
  | waitIdle
  | waitUntilRxQueueBelowLowWatermark (availableBytes : Nat)
  | clearPendingRealtimeOutputs
  | resume
  | giveUp
  | popCommand
  | executeCommand (availableBytes : Nat) (batch : ScriptRuntimeOutputBatch)
  | publish
  | requestStop

def freeCall (w : ScriptRuntimeWorker) : FreeCall → ScriptRuntimeWorker
  | .pushCommand command => w.pushCommand command
  | .pushBytes event mergeAdjacent => w.pushBytes event mergeAdjacent
  | .tryPushBytes availableBytes event maxBytes mergeAdjacent =>
    (w.tryPushBytes availableBytes event maxBytes mergeAdjacent).1
  | .drainOutputs => w.drainOutputs
  | .drainOneOutput => w.drainOneOutput

/-- The draining thread's part of a step, while it does not wait. -/
def callStep (s : WorkerWaits) : WaitStep → WorkerWaits
  | .free call => { s with worker := freeCall s.worker call }
  | .runSync call => s.runSync call
  | .waitIdle => s.waitIdle
  | .waitUntilRxQueueBelowLowWatermark availableBytes =>
    s.waitUntilRxQueueBelowLowWatermark availableBytes
  | .clearPendingRealtimeOutputs => s.clearPendingRealtimeOutputs
  | _ => s

/-- While it waits the thread makes no call; only clearing goes on draining. -/
def waitingStep (s : WorkerWaits) : WaitStep → WorkerWaits
  | .free .drainOutputs =>
    if s.wait = some .clearPendingRealtimeOutputs then
      { s with worker := s.worker.drainOutputs }
    else s
  | .resume => s.resume
  | .giveUp => s.giveUp
  | _ => s

def step (s : WorkerWaits) : WaitStep → WorkerWaits
  | .popCommand => { s with worker := s.worker.popCommand }
  | .executeCommand availableBytes batch => s.executeCommand availableBytes batch
  | .publish => s.publish
  | .requestStop => s.requestStop
  | call => if s.wait.isNone then s.callStep call else s.waitingStep call

def run (steps : List WaitStep) : WorkerWaits :=
  steps.foldl step {}

/-- The draining thread is held up in one of its waits and drains nothing. -/
def waitBlocked (s : WorkerWaits) : Bool :=
  match s.wait with
  | none => false
  | some .clearPendingRealtimeOutputs => false
  | some _ => !s.answered

/-- Each of the two threads waits for the other. -/
def mutualWait (s : WorkerWaits) : Bool :=
  s.publishBlocked && s.waitBlocked

end WorkerWaits

end ProtoScope.Scripting
