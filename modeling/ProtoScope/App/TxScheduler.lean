/-
The TX scheduler of the application.

Requests of the script wait in a queue.  The scheduler hands one at a time to the
transport; a request that expects an answer then stays active until the script reports
`request_done` or its deadline passes.  Whatever ends a request is reported to the script
as a `TxEvent`.  A guarded request is attempted several times, and its final failure halts
the guard, so that later guarded requests are refused until the script resets it.

What the scheduler does outside of itself is listed in `outputs`.  The clock, the state of
the transport and the answers of `enqueueSend` are arguments.
-/
import ProtoScope.Scripting.ScriptOutputs

namespace ProtoScope.App

open ProtoScope.Scripting ProtoScope.Transport

structure ActiveTxRequest where
  request : TxRequest
  sentAtMs : Nat := 0
  waitDeadlineMs : Nat := 0
deriving DecidableEq, Repr

/-- `runtimeConfig_.protocol.tx` -/
structure ProtocolTxConfig where
  sendTimeoutMs : Nat := 1000
  requestTimeoutMs : Nat := 1000
  maxPending : Nat := 64
  overflowPolicy : String := "reject_new"
deriving DecidableEq, Repr

inductive TxOutput where
  /-- `scriptWorker_.postTxEvent` -/
  | txEvent (connection : ConnectionContext) (event : TxEvent)
  /-- `scriptWorker_.postRequestAwaitingCompletion` -/
  | awaitingCompletion (awaiting : Bool)
  /-- a task accepted by `transport_->enqueueSend` -/
  | task (task : TransportTxTask)
  /-- `notifyTxOverflow` -/
  | overflow (message : String)
deriving DecidableEq, Repr

structure TxScheduler where
  pendingTxQueue_ : List TxRequest := []
  activeWrite_ : Option ActiveTxRequest := none
  activeHalfDuplexRequest_ : Option ActiveTxRequest := none
  txRequestGuardHalted_ : Bool := false
  lastError : String := ""
  outputs : List TxOutput := []
deriving DecidableEq, Repr

def toTransportTxKind : TxRequestKind → TransportTxKind
  | .send => .send
  | .request => .request

def toScriptTxState : TransportTxState → TxEventState
  | .sent => .sent
  | .timeout => .timeout
  | .rejected => .rejected
  | .dropped => .dropped
  | .canceled => .canceled

def isGuardedTerminalFailure (request : TxRequest) (state : TxEventState) : Bool :=
  if !request.guarded then false
  else
    match state with
    | .failed | .rejected | .dropped => true
    | .timeout => decide (request.maxAttempts ≤ request.attempt)
    | _ => false

def guardStateForEvent (request : TxRequest) (state : TxEventState) : Option String :=
  if !request.guarded then none
  else if state = .timeout ∧ request.attempt < request.maxAttempts then some "retrying"
  else if isGuardedTerminalFailure request state then some "halted"
  else some "active"

namespace TxScheduler

def put (s : TxScheduler) (output : TxOutput) : TxScheduler :=
  { s with outputs := s.outputs ++ [output] }

/-- The event by which `finishTxRequest` reports a request. -/
def finishEvent (request : TxRequest) (state : TxEventState) (error : Option String)
    (finishedAtMs : Nat) : TxEvent where
  id := request.id
  kind := request.kind
  state := state
  tag := request.tag
  bytes := request.payload.length
  queuedMs := request.createdAtMs
  finishedMs := finishedAtMs
  fileJobId := request.fileJobId
  offset := request.fileOffset
  total := request.fileTotal
  progress :=
    if request.fileTotal = 0 then Float.ofBits 0
    else Float.ofNat (request.fileOffset + request.payload.length) / Float.ofNat request.fileTotal
  guarded := request.guarded
  attempt := request.attempt
  maxAttempts := request.maxAttempts
  guardState := guardStateForEvent request state
  error := error

def finishTxRequest (s : TxScheduler) (request : TxRequest) (state : TxEventState)
    (error : Option String) (finishedAtMs : Nat) : TxScheduler :=
  let s :=
    if isGuardedTerminalFailure request state then { s with txRequestGuardHalted_ := true } else s
  let s :=
    if state = .canceled ∧ (s.activeHalfDuplexRequest_.map (·.request.id)) = some request.id then
      s.put (.awaitingCompletion false)
    else s
  let s :=
    match error with
    | some error => { s with lastError := error }
    | none => s
  s.put (.txEvent request.connection (finishEvent request state error finishedAtMs))

/-- What one turn of the scheduler finds: the transport, its answer, and the clock. -/
structure LinkAnswer where
  isOpen : Bool := true
  accepts : Bool := true
  nowMs : Nat := 0
deriving DecidableEq, Repr

def guardHaltedMessage : String := "guarded request 已熔断，请先调用 proto.reset_request_guard()"

/-- The loop of `driveTxScheduler` over the pending queue, whose turns take the answers in
order. -/
def driveLoop (link : Nat → LinkAnswer) : List TxRequest → Nat → TxScheduler → TxScheduler
  | [], _, s => { s with pendingTxQueue_ := [] }
  | request :: rest, turn, s =>
    let s := { s with pendingTxQueue_ := rest }
    if !(link turn).isOpen then
      driveLoop link rest (turn + 1)
        (s.finishTxRequest request .rejected (some "连接未打开") (link turn).nowMs)
    else if request.guarded && s.txRequestGuardHalted_ then
      driveLoop link rest (turn + 1)
        (s.finishTxRequest request .rejected (some guardHaltedMessage) (link turn).nowMs)
    else if !(link turn).accepts then
      driveLoop link rest (turn + 1)
        (s.finishTxRequest request .rejected (some "transport enqueueSend 失败") (link turn).nowMs)
    else
      let s := s.put (.task
        { requestId := request.id
          kind := toTransportTxKind request.kind
          payload := request.payload
          timeoutMs := request.timeoutMs
          queuedAtMs := request.createdAtMs })
      { s with activeWrite_ := some { request } }

/-- `offline` stands for an import, a replay or a receive history that holds the script. -/
def driveTxScheduler (offline : Bool) (link : Nat → LinkAnswer) (s : TxScheduler) : TxScheduler :=
  if offline || s.activeWrite_.isSome || s.activeHalfDuplexRequest_.isSome then s
  else driveLoop link s.pendingTxQueue_ 0 s

/-- What `enqueueTxRequest` fills in first. -/
def withDefaults (config : ProtocolTxConfig) (request : TxRequest) : TxRequest :=
  { request with
    timeoutMs :=
      if 0 < request.timeoutMs then request.timeoutMs
      else if request.kind = .request then config.requestTimeoutMs
      else config.sendTimeoutMs
    maxAttempts := max 1 request.maxAttempts
    attempt := max 1 request.attempt }

def pushPending (s : TxScheduler) (request : TxRequest) : TxScheduler :=
  { s with pendingTxQueue_ := s.pendingTxQueue_ ++ [request] }

def pushFrontPending (s : TxScheduler) (request : TxRequest) : TxScheduler :=
  { s with pendingTxQueue_ := request :: s.pendingTxQueue_ }

/-- The awaited request is let go, and the worker told so. -/
def releaseHalfDuplex (s : TxScheduler) : TxScheduler :=
  { s with activeHalfDuplexRequest_ := none }.put (.awaitingCompletion false)

def overflowMessage : String := "发送队列已满"

/-- The queue is full: the overflow policy says which request goes. -/
def overflowTxRequest (config : ProtocolTxConfig) (nowMs : Nat) (s : TxScheduler)
    (request : TxRequest) : TxScheduler :=
  match config.overflowPolicy == "drop_oldest_waiting", s.pendingTxQueue_ with
  | true, dropped :: rest =>
    let s := { s with pendingTxQueue_ := rest }
    let s := s.finishTxRequest dropped .dropped (some overflowMessage) nowMs
    (s.pushPending request).put (.overflow overflowMessage)
  | _, _ =>
    let state : TxEventState :=
      if config.overflowPolicy == "drop_newest" then .dropped else .rejected
    (s.finishTxRequest request state (some overflowMessage) nowMs).put (.overflow overflowMessage)

def enqueueTxRequest (config : ProtocolTxConfig) (nowMs : Nat) (s : TxScheduler)
    (request : TxRequest) : TxScheduler :=
  let request := withDefaults config request
  let activeCount :=
    s.pendingTxQueue_.length + s.activeWrite_.toList.length +
      s.activeHalfDuplexRequest_.toList.length
  if request.guarded && s.txRequestGuardHalted_ then
    s.finishTxRequest request .rejected (some guardHaltedMessage) nowMs
  else if activeCount < config.maxPending then
    s.pushPending request
  else
    overflowTxRequest config nowMs s request

/-- The event that reports a request as sent while its answer is awaited. -/
def sentEvent (request : TxRequest) (event : TransportTxEvent) (error : Option String) : TxEvent where
  id := request.id
  kind := request.kind
  state := .sent
  tag := request.tag
  bytes := event.bytes
  queuedMs := request.createdAtMs
  finishedMs := event.finishedAtMs
  guarded := request.guarded
  attempt := request.attempt
  maxAttempts := request.maxAttempts
  guardState := guardStateForEvent request .sent
  error := error

/-- The request that was sent waits for the script's answer.  Without the worker thread
the source also drains the script's outputs here; that is `applyScriptTxOutputs`, a step
of its own. -/
def awaitAnswer (s : TxScheduler) (activeWrite : ActiveTxRequest) (event : TransportTxEvent)
    (error : Option String) : TxScheduler :=
  let active :=
    { activeWrite with
      sentAtMs := event.finishedAtMs
      waitDeadlineMs := event.finishedAtMs + activeWrite.request.timeoutMs }
  let s := { s with activeWrite_ := none, activeHalfDuplexRequest_ := some active }
  let s := s.put (.awaitingCompletion true)
  s.put (.txEvent activeWrite.request.connection (sentEvent activeWrite.request event error))

def processTransportTxEvent (offline : Bool) (link : Nat → LinkAnswer) (s : TxScheduler)
    (event : TransportTxEvent) : TxScheduler :=
  match s.activeWrite_ with
  | none => s
  | some activeWrite =>
    if activeWrite.request.id ≠ event.requestId then s
    else
      let state := toScriptTxState event.state
      let error := if event.error.isEmpty then none else some event.error
      if state = .sent ∧ activeWrite.request.kind = .request then
        s.awaitAnswer activeWrite event error
      else
        let s := { s with activeWrite_ := none }
        (s.finishTxRequest activeWrite.request state error event.finishedAtMs).driveTxScheduler
          offline link

structure ScriptTxBatch where
  requestGuardResets : List ConnectionContext := []
  txRequests : List TxRequest := []
  requestDoneResults : List RequestDoneResult := []
deriving DecidableEq, Repr

def resetRequestGuard (nowMs : Nat) (s : TxScheduler) (connection : ConnectionContext) :
    TxScheduler :=
  let s := { s with txRequestGuardHalted_ := false }
  s.put (.txEvent connection
    { id := 0
      kind := .request
      state := .completed
      tag := "request_guard"
      queuedMs := nowMs
      finishedMs := nowMs
      guarded := true
      guardState := some "reset" })

/-- The results of one batch: the first that meets a waiting request completes it. -/
def applyRequestDone : List RequestDoneResult → TxScheduler → TxScheduler
  | [], s => s
  | result :: results, s =>
    match s.activeHalfDuplexRequest_ with
    | none => applyRequestDone results s
    | some active =>
      let s := s.releaseHalfDuplex
      let s :=
        if result.ok && !result.message.isEmpty && s.lastError == result.message then
          { s with lastError := "" }
        else s
      -- the remaining results of the batch are ignored
      s.finishTxRequest active.request (if result.ok then .completed else .failed)
        (if !result.ok && !result.message.isEmpty then some result.message else none)
        result.timestampMs

def applyScriptTxOutputs (config : ProtocolTxConfig) (offline : Bool) (nowMs : Nat) (s : TxScheduler)
    (batch : ScriptTxBatch) : TxScheduler :=
  if offline then s
  else
    let s := batch.requestGuardResets.foldl (resetRequestGuard nowMs) s
    let s := batch.txRequests.foldl (enqueueTxRequest config nowMs) s
    applyRequestDone batch.requestDoneResults s

def requestDoneTimeoutMessage : String := "等待 request_done 超时"

/-- `backlog`: transport events, bytes or worker outputs are still to be dispatched, and
the deadline is looked at again after them. -/
def processRequestTimeouts (offline : Bool) (link : Nat → LinkAnswer) (backlog : Bool)
    (currentMs : Nat) (s : TxScheduler) : TxScheduler :=
  match s.activeHalfDuplexRequest_ with
  | none => s
  | some active =>
    if currentMs < active.waitDeadlineMs || backlog then s
    else
      let request := active.request
      let s := s.releaseHalfDuplex
      let s := s.finishTxRequest request .timeout (some requestDoneTimeoutMessage) currentMs
      let s :=
        if request.guarded ∧ request.attempt < request.maxAttempts then
          s.pushFrontPending { request with attempt := request.attempt + 1 }
        else s
      s.driveTxScheduler offline link

def cancelPendingTxRequests (reason : String) (finishedAtMs : Nat) : List TxRequest → TxScheduler →
    TxScheduler
  | [], s => { s with pendingTxQueue_ := [] }
  | request :: rest, s =>
    let s := { s with pendingTxQueue_ := rest }
    cancelPendingTxRequests reason finishedAtMs rest
      (s.finishTxRequest request .canceled (some reason) finishedAtMs)

def cancelActiveWrite (reason : String) (finishedAtMs : Nat) (s : TxScheduler) : TxScheduler :=
  match s.activeWrite_ with
  | some active =>
    { s.finishTxRequest active.request .canceled (some reason) finishedAtMs with
      activeWrite_ := none }
  | none => s

def cancelHalfDuplex (reason : String) (finishedAtMs : Nat) (s : TxScheduler) : TxScheduler :=
  match s.activeHalfDuplexRequest_ with
  | some active =>
    let s := s.put (.awaitingCompletion false)
    { s.finishTxRequest active.request .canceled (some reason) finishedAtMs with
      activeHalfDuplexRequest_ := none }
  | none => s

def cancelAllTxRequests (s : TxScheduler) (reason : String) (nowMs : Nat) : TxScheduler :=
  let s := cancelHalfDuplex reason nowMs (cancelActiveWrite reason nowMs s)
  cancelPendingTxRequests reason nowMs s.pendingTxQueue_ s

/-! ### Runs -/

/-- What can happen to the scheduler. -/
inductive TxStep where
  | enqueue (nowMs : Nat) (request : TxRequest)
  | transportEvent (offline : Bool) (link : Nat → LinkAnswer) (event : TransportTxEvent)
  | scriptOutputs (offline : Bool) (nowMs : Nat) (batch : ScriptTxBatch)
  | requestTimeouts (offline : Bool) (link : Nat → LinkAnswer) (backlog : Bool) (currentMs : Nat)
  | drive (offline : Bool) (link : Nat → LinkAnswer)
  | cancelAll (reason : String) (nowMs : Nat)

def step (config : ProtocolTxConfig) (s : TxScheduler) : TxStep → TxScheduler
  | .enqueue nowMs request => enqueueTxRequest config nowMs s request
  | .transportEvent offline link event => s.processTransportTxEvent offline link event
  | .scriptOutputs offline nowMs batch => s.applyScriptTxOutputs config offline nowMs batch
  | .requestTimeouts offline link backlog currentMs =>
    s.processRequestTimeouts offline link backlog currentMs
  | .drive offline link => s.driveTxScheduler offline link
  | .cancelAll reason nowMs => s.cancelAllTxRequests reason nowMs

def run (config : ProtocolTxConfig) (steps : List TxStep) : TxScheduler :=
  steps.foldl (step config) {}

end TxScheduler

end ProtoScope.App
