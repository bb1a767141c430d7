/-
The worker that runs the script host.

The program posts commands into a queue, bytes from the transports among them, and one
thread takes them out and executes them.  The queue is bounded by its pending RX bytes,
the batches the host produces by an output limit.

Each function is one section under the worker's lock, or what the thread does between two
of them, so a list of steps is an interleaving of the posting side with the thread.  The
calls that reach the host are listed in `host`; what the host produces in answer is an
argument of the step that publishes it.
-/
import ProtoScope.Scripting.ScriptOutputs

namespace ProtoScope.Scripting

open ProtoScope.Transport

structure ScriptRuntimeWorkerConfig where
  enabled : Bool := true
  rxQueueLimitBytes : Nat := 64 * 1024 * 1024
  memoryBudgetBytes : Nat := 256 * 1024 * 1024
  memoryBudgetAvailableRatio : Float := Float.ofBits 0
  outputQueueLimit : Nat := 65536
  batchBytes : Nat := 8192
  backpressureEnabled : Bool := true
  backpressureHighWatermark : Float := 0.5
  backpressureLowWatermark : Float := 0.3
deriving Repr

/-- The commands other than `BytesCommand`.  Those that only call into the host, and of
which no modelled function looks at the contents, are `hostCall`. -/
inductive PlainCommand where
  | configure (config : ScriptRuntimeWorkerConfig)
  | budgetSettings (rxQueueBytes memoryBytes outputLimit batchBytes : Nat)
  | reloadProtocol (directory : String)
  | resetStreamReplayState
  | clearRealtimeOutputs
  | open (context : ConnectionContext)
  | close (context : ConnectionContext)
  | txEvent (context : ConnectionContext) (event : TxEvent)
  | requestAwaitingCompletion (active : Bool)
  | tick (currentMs : Nat)
  | hostCall (name : String)
  | idle
deriving Repr

inductive WorkerCommand where
  | bytes (event : TransportBytesEvent)
  | plain (command : PlainCommand)
deriving Repr

/-- A call the worker makes into the script host. -/
inductive HostCall where
  | configured
  | loadProtocolDirectory (directory : String)
  | resetStreamReplayState
  | clearPendingRealtimeOutputs
  | transportOpen (context : ConnectionContext)
  | transportClose (context : ConnectionContext)
  | transportBytes (event : TransportBytesEvent)
  | txEvent (context : ConnectionContext) (event : TxEvent)
  | requestAwaitingCompletion (active : Bool)
  | tick (currentMs : Nat)
  | other (name : String)
deriving Repr

structure ScriptRuntimeWorker where
  commands : List WorkerCommand := []
  outputs : List ScriptRuntimeOutputBatch := []
  config : ScriptRuntimeWorkerConfig := {}
  pendingRxBytes : Nat := 0
  executingRxBytes : Nat := 0
  rxBackpressureWarningActive : Bool := false
  stopping : Bool := false
  /-- the command the thread has taken out and not yet executed -/
  popped : Option WorkerCommand := none
  /-- the command that is executed, while its outputs are not yet published -/
  executed : Option WorkerCommand := none
  activeConnectionId : Option Nat := none
  host : List HostCall := []
deriving Repr

/-- `availableSystemMemoryBytes` of a platform that reports no available memory; the
default budget applies then. -/
def kDefaultWorkerMemoryBudgetBytes : Nat := 256 * (1024 * 1024)

def resolveMemoryBudgetBytes (config : ScriptRuntimeWorkerConfig) (availableBytes : Nat) : Nat :=
  if 0 < config.memoryBudgetBytes then config.memoryBudgetBytes
  else if (Float.ofBits 0).lt config.memoryBudgetAvailableRatio && decide (0 < availableBytes) then
    (Float.ofNat availableBytes * config.memoryBudgetAvailableRatio).toUInt64.toNat
  else kDefaultWorkerMemoryBudgetBytes

def rxQueueBudgetBytes (config : ScriptRuntimeWorkerConfig) (availableBytes : Nat) : Nat :=
  let memoryBudgetBytes := resolveMemoryBudgetBytes config availableBytes
  if config.rxQueueLimitBytes = 0 then memoryBudgetBytes
  else if memoryBudgetBytes = 0 then config.rxQueueLimitBytes
  else min config.rxQueueLimitBytes memoryBudgetBytes

def watermarkBytes (budgetBytes : Nat) (ratio : Float) : Nat :=
  if budgetBytes = 0 || ratio.le (Float.ofBits 0) then 0
  else if (Float.ofNat 1).le ratio then budgetBytes
  else (Float.ofNat budgetBytes * ratio).toUInt64.toNat

namespace ScriptRuntimeWorker

def call (w : ScriptRuntimeWorker) (hostCall : HostCall) : ScriptRuntimeWorker :=
  { w with host := w.host ++ [hostCall] }

/-! ### Posting -/

def pushCommand (w : ScriptRuntimeWorker) (command : PlainCommand) : ScriptRuntimeWorker :=
  if w.stopping then w else { w with commands := w.commands ++ [.plain command] }

/-- Whether new bytes may join the command at the end of the queue. -/
def mergesInto (config : ScriptRuntimeWorkerConfig) (previous : TransportBytesEvent)
    (event : TransportBytesEvent) : Bool :=
  previous.context.connectionId == event.context.connectionId &&
    previous.context.readyForIo == event.context.readyForIo &&
    previous.context.endpoint == event.context.endpoint &&
    decide (previous.bytes.length + event.bytes.length ≤ config.batchBytes)

/-- Appends the bytes, to the last command where they merge into it. -/
def appendBytes (config : ScriptRuntimeWorkerConfig) (mergeAdjacent : Bool)
    (event : TransportBytesEvent) : List WorkerCommand → List WorkerCommand
  | [] => [.bytes event]
  | [.bytes previous] =>
    if mergeAdjacent && mergesInto config previous event then
      [.bytes
        { context := { previous.context with timestampMs := event.context.timestampMs }
          bytes := previous.bytes ++ event.bytes }]
    else [.bytes previous, .bytes event]
  | command :: commands => command :: appendBytes config mergeAdjacent event commands

def pushBytes (w : ScriptRuntimeWorker) (event : TransportBytesEvent) (mergeAdjacent : Bool) :
    ScriptRuntimeWorker :=
  if event.bytes.isEmpty || w.stopping then w
  else
    { w with
      pendingRxBytes := w.pendingRxBytes + event.bytes.length
      commands := appendBytes w.config mergeAdjacent event w.commands }

def rxBackpressureWarning (pendingBytes highWaterBytes : Nat) : ScriptRuntimeOutputBatch where
  logs :=
    [{ level := "warn"
       message := "脚本 worker RX 队列达到高水位，已暂停投递等待后台解析: pending=" ++
        toString pendingBytes ++ " 字节, high_water=" ++ toString highWaterBytes ++ " 字节" }]

def pushRxBackpressureWarningLocked (w : ScriptRuntimeWorker) (pendingBytes highWaterBytes : Nat) :
    ScriptRuntimeWorker :=
  if 0 < w.config.outputQueueLimit && decide (w.config.outputQueueLimit ≤ w.outputs.length) then w
  else { w with outputs := w.outputs ++ [rxBackpressureWarning pendingBytes highWaterBytes] }

/-- The high and the low watermark by which `tryPushBytes` accepts. -/
def acceptanceWatermarks (config : ScriptRuntimeWorkerConfig) (availableBytes : Nat) : Nat × Nat :=
  let budget := rxQueueBudgetBytes config availableBytes
  let configuredHighWater :=
    if config.backpressureEnabled && decide (0 < budget) then
      watermarkBytes budget config.backpressureHighWatermark
    else budget
  let highWater :=
    if decide (0 < budget) && config.backpressureEnabled &&
        (Float.ofBits 0).lt config.backpressureHighWatermark then
      max configuredHighWater 1
    else configuredHighWater
  let lowWater :=
    if config.backpressureEnabled then
      min highWater (watermarkBytes budget config.backpressureLowWatermark)
    else highWater
  (highWater, lowWater)

def warnAtHighWater (w : ScriptRuntimeWorker) (highWater : Nat) : ScriptRuntimeWorker :=
  if w.config.backpressureEnabled && decide (highWater ≤ w.pendingRxBytes) &&
      !w.rxBackpressureWarningActive then
    { w with rxBackpressureWarningActive := true }.pushRxBackpressureWarningLocked w.pendingRxBytes
      highWater
  else w

/-- Accepts a part of the bytes from the front, up to the high watermark; the result is the
number accepted. -/
def tryPushBytes (w : ScriptRuntimeWorker) (availableBytes : Nat) (event : TransportBytesEvent)
    (maxBytes : Nat) (mergeAdjacent : Bool) : ScriptRuntimeWorker × Nat :=
  let (highWater, lowWater) := acceptanceWatermarks w.config availableBytes
  if event.bytes.isEmpty || w.stopping || !w.config.enabled || maxBytes == 0 ||
      !(decide (0 < highWater) || rxQueueBudgetBytes w.config availableBytes == 0) then
    (w, 0)
  else
    let w :=
      if w.pendingRxBytes ≤ lowWater then { w with rxBackpressureWarningActive := false } else w
    if w.pendingRxBytes < highWater ∧
        ¬ (w.rxBackpressureWarningActive = true ∧ lowWater < w.pendingRxBytes) then
      let count := min event.bytes.length (min maxBytes (highWater - w.pendingRxBytes))
      let acceptedEvent := { event with bytes := event.bytes.take count }
      let w :=
        { w with
          commands := appendBytes w.config mergeAdjacent acceptedEvent w.commands
          pendingRxBytes := w.pendingRxBytes + count }
      (w.warnAtHighWater highWater, count)
    else
      (w.warnAtHighWater highWater, 0)

/-- The watermarks by which `pushBytes` waits for the thread. -/
def waitingWatermarks (config : ScriptRuntimeWorkerConfig) (availableBytes : Nat) : Nat × Nat :=
  let budgetBytes := rxQueueBudgetBytes config availableBytes
  let highWaterBytes :=
    if (Float.ofBits 0).lt config.backpressureHighWatermark && decide (0 < budgetBytes) then
      max (watermarkBytes budgetBytes config.backpressureHighWatermark) 1
    else 0
  let lowWaterBytes :=
    if config.backpressureEnabled then
      min highWaterBytes (watermarkBytes budgetBytes config.backpressureLowWatermark)
    else highWaterBytes
  (highWaterBytes, lowWaterBytes)

/-- `waitUntilRxQueueBelowLowWatermark` up to the wait. -/
def beginRxWait (w : ScriptRuntimeWorker) (availableBytes : Nat) : ScriptRuntimeWorker :=
  let (highWaterBytes, _) := waitingWatermarks w.config availableBytes
  if rxQueueBudgetBytes w.config availableBytes = 0 ∨ highWaterBytes = 0 ∨
      w.pendingRxBytes ≤ highWaterBytes ∨ w.rxBackpressureWarningActive = true then w
  else
    { w with rxBackpressureWarningActive := true }.pushRxBackpressureWarningLocked w.pendingRxBytes
      highWaterBytes

/-- `waitUntilRxQueueBelowLowWatermark` after the wait. -/
def endRxWait (w : ScriptRuntimeWorker) (availableBytes : Nat) : ScriptRuntimeWorker :=
  let (_, lowWaterBytes) := waitingWatermarks w.config availableBytes
  if w.pendingRxBytes ≤ lowWaterBytes then { w with rxBackpressureWarningActive := false } else w

/-! ### Executing -/

def popCommand (w : ScriptRuntimeWorker) : ScriptRuntimeWorker :=
  match w.popped, w.executed, w.commands with
  | none, none, command :: commands =>
    { w with
      commands := commands
      popped := some command
      executingRxBytes :=
        match command with
        | .bytes event => w.executingRxBytes + event.bytes.length
        | .plain _ => w.executingRxBytes }
  | _, _, _ => w

def subtractPendingRxBytes (w : ScriptRuntimeWorker) (availableBytes : Nat) (bytes : Nat) :
    ScriptRuntimeWorker :=
  let w := { w with pendingRxBytes := w.pendingRxBytes - min w.pendingRxBytes bytes }
  let budget := rxQueueBudgetBytes w.config availableBytes
  let highWater :=
    if w.config.backpressureEnabled then
      if decide (0 < budget) && (Float.ofBits 0).lt w.config.backpressureHighWatermark then
        max (watermarkBytes budget w.config.backpressureHighWatermark) 1
      else 0
    else budget
  let lowWater :=
    if w.config.backpressureEnabled then
      min highWater (watermarkBytes budget w.config.backpressureLowWatermark)
    else budget
  if w.pendingRxBytes ≤ lowWater then { w with rxBackpressureWarningActive := false } else w

def clearQueuedRxLocked (w : ScriptRuntimeWorker) : ScriptRuntimeWorker :=
  w.commands.foldl
    (fun w command =>
      match command with
      | .bytes event =>
        { w with pendingRxBytes := w.pendingRxBytes - min w.pendingRxBytes event.bytes.length }
      | .plain _ => { w with commands := w.commands ++ [command] })
    { w with commands := [] }

/-- Bytes of a ready connection are passed on unless another connection is the active one. -/
def deliversBytes (activeConnectionId : Option Nat) (event : TransportBytesEvent) : Bool :=
  match activeConnectionId with
  | some active => !(event.context.readyForIo && active != event.context.connectionId)
  | none => true

def handleHostBytesCommand (w : ScriptRuntimeWorker) (availableBytes : Nat)
    (event : TransportBytesEvent) : ScriptRuntimeWorker :=
  let w := w.subtractPendingRxBytes availableBytes event.bytes.length
  if deliversBytes w.activeConnectionId event then
    let w := w.call (.transportBytes event)
    if event.context.readyForIo then
      { w with activeConnectionId := some event.context.connectionId }
    else w
  else w

def executePlain (w : ScriptRuntimeWorker) : PlainCommand → ScriptRuntimeWorker
  | .configure config => { w.call .configured with config := config }
  | .budgetSettings rxQueueBytes memoryBytes outputLimit batchBytes =>
    { w with
      config :=
        { w.config with
          rxQueueLimitBytes := rxQueueBytes
          memoryBudgetBytes := memoryBytes
          outputQueueLimit := outputLimit
          batchBytes := batchBytes } }
  | .reloadProtocol directory =>
    let w := w.clearQueuedRxLocked
    let w := (w.call .clearPendingRealtimeOutputs).call (.loadProtocolDirectory directory)
    { w with activeConnectionId := none }
  | .resetStreamReplayState =>
    let w := w.clearQueuedRxLocked
    { w with activeConnectionId := none }.call .resetStreamReplayState
  | .clearRealtimeOutputs => { w.call .clearPendingRealtimeOutputs with outputs := [] }
  | .open context =>
    let w :=
      if context.readyForIo then { w with activeConnectionId := some context.connectionId } else w
    w.call (.transportOpen context)
  | .close context =>
    let w := w.call (.transportClose context)
    let w :=
      if w.activeConnectionId = some context.connectionId then { w with activeConnectionId := none }
      else w
    w.clearQueuedRxLocked
  | .txEvent context event => w.call (.txEvent context event)
  | .requestAwaitingCompletion active => w.call (.requestAwaitingCompletion active)
  | .tick currentMs => w.call (.tick currentMs)
  | .hostCall name => w.call (.other name)
  | .idle => w

def executeCommand (w : ScriptRuntimeWorker) (availableBytes : Nat) : ScriptRuntimeWorker :=
  match w.popped with
  | none => w
  | some command =>
    let w := { w with popped := none, executed := some command }
    match command with
    | .bytes event => w.handleHostBytesCommand availableBytes event
    | .plain command => w.executePlain command

/-- `publishOutputs` waits while the output queue is full. -/
def canPublish (w : ScriptRuntimeWorker) (batch : ScriptRuntimeOutputBatch) : Bool :=
  !hasOutputs batch || w.config.outputQueueLimit == 0 || w.stopping ||
    decide (w.outputs.length < w.config.outputQueueLimit)

def publishOutputs (w : ScriptRuntimeWorker) (batch : ScriptRuntimeOutputBatch) :
    ScriptRuntimeWorker :=
  if !hasOutputs batch || (decide (0 < w.config.outputQueueLimit) && w.stopping) then w
  else { w with outputs := w.outputs ++ [batch] }

/-- The end of a turn of the thread: the host's outputs are published, then the bytes of
the command no longer count as executing. -/
def publish (w : ScriptRuntimeWorker) (batch : ScriptRuntimeOutputBatch) : ScriptRuntimeWorker :=
  match w.executed with
  | none => w
  | some command =>
    if w.canPublish batch then
      let w := w.publishOutputs batch
      { w with
        executed := none
        executingRxBytes :=
          match command with
          | .bytes event => w.executingRxBytes - min w.executingRxBytes event.bytes.length
          | .plain _ => w.executingRxBytes }
    else w

def drainOutputs (w : ScriptRuntimeWorker) : ScriptRuntimeWorker := { w with outputs := [] }

def drainOneOutput (w : ScriptRuntimeWorker) : ScriptRuntimeWorker :=
  { w with outputs := w.outputs.tail }

def requestStop (w : ScriptRuntimeWorker) : ScriptRuntimeWorker := { w with stopping := true }

/-! ### Runs -/

inductive WorkerStep where
  | pushCommand (command : PlainCommand)
  | pushBytes (event : TransportBytesEvent) (mergeAdjacent : Bool)
  | tryPushBytes (availableBytes : Nat) (event : TransportBytesEvent) (maxBytes : Nat)
      (mergeAdjacent : Bool)
  | beginRxWait (availableBytes : Nat)
  | endRxWait (availableBytes : Nat)
  | popCommand
  | executeCommand (availableBytes : Nat)
  | publish (batch : ScriptRuntimeOutputBatch)
  | drainOutputs
  | drainOneOutput
  | requestStop

def step (w : ScriptRuntimeWorker) : WorkerStep → ScriptRuntimeWorker
  | .pushCommand command => w.pushCommand command
  | .pushBytes event mergeAdjacent => w.pushBytes event mergeAdjacent
  | .tryPushBytes availableBytes event maxBytes mergeAdjacent =>
    (w.tryPushBytes availableBytes event maxBytes mergeAdjacent).1
  | .beginRxWait availableBytes => w.beginRxWait availableBytes
  | .endRxWait availableBytes => w.endRxWait availableBytes
  | .popCommand => w.popCommand
  | .executeCommand availableBytes => w.executeCommand availableBytes
  | .publish batch => w.publish batch
  | .drainOutputs => w.drainOutputs
  | .drainOneOutput => w.drainOneOutput
  | .requestStop => w.requestStop

def run (steps : List WorkerStep) : ScriptRuntimeWorker :=
  steps.foldl step {}

end ScriptRuntimeWorker

end ProtoScope.Scripting
