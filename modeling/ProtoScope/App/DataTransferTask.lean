/-
The background task that imports a file.

One thread of the program starts, confirms, cancels and empties the task; the task's own
worker reads the file and queues batches, at most four at a time.  Each action below is one
section under the task's lock, or what a thread does between two of them without it, so a
list of actions is an interleaving of the two threads.  Cancelling takes two of them: the
section that clears the queue, and after it the request to stop, which holds no lock and may
come between the two parts of a push.

Exports, which queue no batches, and what the worker reads are left out: what it pushes and
how it ends are arguments.
-/
import ProtoScope.Plot.RawCaptureEvents
import ProtoScope.Plot.WaveQuery

namespace ProtoScope.App

open ProtoScope.Data (Text text)
open ProtoScope.Plot

structure DataTransferStatus where
  id : ℕ := 0
  active : Bool := false
  awaitingConfirmation : Bool := false
  canceled : Bool := false
  complete : Bool := false
  importing : Bool := false
  includesRecords : Bool := false
  submitted : ℕ := 0
  total : ℕ := 0
  error : Text := []

structure DataImportBatch (α : Type) where
  id : ℕ := 0
  channel : ℕ := 0
  sampleIndexOffset : ℕ := 0
  samples : List (WaveSample α) := []
  event : Option RawCaptureEvent := none
  events : List RawCaptureEvent := []

/-- Where the worker is. -/
inductive TransferWorker (α : Type) where
  | absent
  /-- between two calls into the task -/
  | reading
  /-- waiting for the confirmation -/
  | confirming
  /-- in `push`, waiting for room -/
  | waiting (batch : DataImportBatch α)
  /-- in `push` with the lock, past the check of the stop request -/
  | admitted (batch : DataImportBatch α)
  | finished

/-- Where the other thread is; the error is the one `fail` was called with. -/
inductive TransferCaller where
  | idle
  /-- in `cancel`, after its section -/
  | cancelling (error : Option Text)
  /-- in `cancel`, after the request to stop -/
  | stopping (error : Option Text)

structure DataTransferTask (α : Type) where
  status : DataTransferStatus := {}
  batches : List (DataImportBatch α) := []
  confirmed : Bool := false
  stopRequested : Bool := false
  worker : TransferWorker α := .absent
  caller : TransferCaller := .idle

inductive TransferAction (α : Type) where
  | startImport
  | confirm
  | cancel
  | fail (error : Text)
  | requestStop
  | cancelReturn
  | take (maxSamples maxBytes : ℕ)
  | readStatus
  | submitted (count : ℕ)
  | produced (count : ℕ)
  | announce (includesRecords : Bool)
  | confirmationSeen
  | push (batch : DataImportBatch α)
  | admitBatch
  | pushRefused
  | append
  | finish (error : Text) (canceled : Bool)

/-- What the calls return. -/
inductive TransferReturn (α : Type) where
  /-- `cancel` of a running task, by its number -/
  | cancelled (id : ℕ)
  | took (batch : DataImportBatch α)
  | reported (status : DataTransferStatus)

variable {α : Type}

def TransferWorker.isFinished : TransferWorker α → Bool
  | .finished => true
  | _ => false

/-- The worker has started and has not finished. -/
def TransferWorker.isRunning : TransferWorker α → Bool
  | .absent | .finished => false
  | _ => true

namespace DataTransferTask

/-- Nobody holds the lock; the other thread never does between two of its actions. -/
def unlocked (task : DataTransferTask α) : Bool :=
  match task.worker with
  | .admitted _ => false
  | _ => true

def isIdle (task : DataTransferTask α) : Bool :=
  match task.caller with
  | .idle => true
  | _ => false

/-- An inactive task's worker has left its last section, so joining it returns. -/
def startImport (task : DataTransferTask α) : DataTransferTask α :=
  if task.status.active then task
  else
    { status := { id := task.status.id + 1, active := true, importing := true }
      batches := []
      confirmed := false
      stopRequested := false
      worker := .reading
      caller := task.caller }

/-- The section of `cancel`, where the task is active. -/
def clear (task : DataTransferTask α) : DataTransferTask α :=
  { task with
    status :=
      { task.status with
        canceled := true
        active := if task.status.complete then false else task.status.active }
    batches := [] }

def cancel (task : DataTransferTask α) : DataTransferTask α :=
  if task.status.active then { task.clear with caller := .cancelling none } else task

def fail (task : DataTransferTask α) (error : Text) : DataTransferTask α :=
  if task.status.active then { task.clear with caller := .cancelling (some error) }
  else { task with status := { task.status with error := error } }

def requestStop (task : DataTransferTask α) : Option (DataTransferTask α) :=
  match task.caller with
  | .cancelling error => some { task with stopRequested := true, caller := .stopping error }
  | _ => none

/-- `fail` then sets its error, for which it takes the lock again. -/
def cancelReturn (task : DataTransferTask α) : Option (DataTransferTask α) :=
  match task.caller with
  | .stopping none => some { task with caller := .idle }
  | .stopping (some error) =>
    if task.unlocked then
      some { task with status := { task.status with error := error }, caller := .idle }
    else none
  | _ => none

def confirm (task : DataTransferTask α) : DataTransferTask α :=
  { task with confirmed := true, status := { task.status with awaitingConfirmation := false } }

/-- The bytes `take` counts, an event at least as one. -/
def eventBytes (batch : DataImportBatch α) : ℕ :=
  (batch.events.map fun event => max 1 event.bytes.length).sum

def take (task : DataTransferTask α) (maxSamples maxBytes : ℕ) :
    DataTransferTask α × Option (DataImportBatch α) :=
  match task.batches with
  | [] => (task, none)
  | batch :: batches =>
    if maxSamples < batch.samples.length ∨ maxBytes < eventBytes batch then (task, none)
    else
      ({ task with
          batches := batches
          status :=
            { task.status with
              active :=
                if batches.isEmpty && task.status.complete then false else task.status.active } },
        some batch)

def announce (task : DataTransferTask α) (includesRecords : Bool) : DataTransferTask α :=
  { task with
    status := { task.status with includesRecords := includesRecords, awaitingConfirmation := true }
    worker := .confirming }

/-- The wait in `push` ended with room in the queue, and no stop was requested since. -/
def admitBatch (task : DataTransferTask α) : Option (DataTransferTask α) :=
  match task.worker with
  | .waiting batch =>
    if task.batches.length < 4 ∧ task.stopRequested = false then
      some { task with worker := .admitted batch }
    else none
  | _ => none

def append (task : DataTransferTask α) : Option (DataTransferTask α) :=
  match task.worker with
  | .admitted batch =>
    some { task with
      batches := task.batches ++ [{ batch with id := task.status.id }]
      worker := .reading }
  | _ => none

/-- The import's worker finishes uncommitted. -/
def finish (task : DataTransferTask α) (error : Text) (canceled : Bool) : DataTransferTask α :=
  let newError := if task.status.error = [] then error else task.status.error
  let newCanceled := canceled || task.status.canceled
  let batches := if newCanceled || !newError.isEmpty then [] else task.batches
  { task with
    status :=
      { task.status with
        error := newError
        canceled := newCanceled
        complete := true
        awaitingConfirmation := false
        active := !batches.isEmpty }
    batches := batches
    worker := .finished }

/-- One action, where it is possible, and what a call returns by it. -/
def step (task : DataTransferTask α) :
    TransferAction α → Option (DataTransferTask α × List (TransferReturn α))
  | .startImport =>
    if task.isIdle && task.unlocked then some (task.startImport, []) else none
  | .confirm => if task.isIdle && task.unlocked then some (task.confirm, []) else none
  | .cancel => if task.isIdle && task.unlocked then some (task.cancel, []) else none
  | .fail error => if task.isIdle && task.unlocked then some (task.fail error, []) else none
  | .requestStop => task.requestStop.map fun next => (next, [])
  | .cancelReturn => task.cancelReturn.map fun next => (next, [.cancelled task.status.id])
  | .take maxSamples maxBytes =>
    if task.isIdle && task.unlocked then
      some ((task.take maxSamples maxBytes).1,
        (task.take maxSamples maxBytes).2.toList.map .took)
    else none
  | .readStatus =>
    if task.isIdle && task.unlocked then some (task, [.reported task.status]) else none
  | .submitted count =>
    if task.isIdle && task.unlocked then
      some ({ task with
        status := { task.status with submitted := task.status.submitted + count } }, [])
    else none
  | .produced count =>
    match task.worker with
    | .reading =>
      some ({ task with status := { task.status with total := task.status.total + count } }, [])
    | _ => none
  | .announce includesRecords =>
    match task.worker with
    | .reading => some (task.announce includesRecords, [])
    | _ => none
  | .confirmationSeen =>
    match task.worker with
    | .confirming =>
      if task.confirmed || task.stopRequested then some ({ task with worker := .reading }, [])
      else none
    | _ => none
  | .push batch =>
    match task.worker with
    | .reading => some ({ task with worker := .waiting batch }, [])
    | _ => none
  | .admitBatch => task.admitBatch.map fun next => (next, [])
  | .pushRefused =>
    match task.worker with
    | .waiting _ =>
      if task.stopRequested then some ({ task with worker := .reading }, []) else none
    | _ => none
  | .append => task.append.map fun next => (next, [])
  | .finish error canceled =>
    match task.worker with
    | .reading =>
      if canceled && !task.stopRequested then none else some (task.finish error canceled, [])
    | _ => none

/-- A run: the task after it and everything the calls returned. -/
def runFrom (task : DataTransferTask α) :
    List (TransferAction α) → Option (DataTransferTask α × List (TransferReturn α))
  | [] => some (task, [])
  | action :: actions =>
    (task.step action).bind fun next =>
      (runFrom next.1 actions).map fun last => (last.1, next.2 ++ last.2)

/-- The run of a new task. -/
def run (actions : List (TransferAction α)) :
    Option (DataTransferTask α × List (TransferReturn α)) :=
  runFrom {} actions

end DataTransferTask

end ProtoScope.App
