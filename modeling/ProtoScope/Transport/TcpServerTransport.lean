/-
The TCP server: one listener, one active client at a time.

An I/O thread runs the handlers of accepting and reading and the writes that were posted to
it; the program calls the rest.  Each handler is a step, with what the network has to say as
its arguments, and so is each call, except that `close` is three: it captures what it will
report, it stops the thread, it reports.  `open` closes first, so it is a step of a
transport without a thread.

The state also keeps what only a proof looks at: all events ever pushed, and with an
accepted task the client it was accepted for.
-/
import ProtoScope.Transport.TransportTypes

namespace ProtoScope.Transport

/-- A task that is posted to the I/O thread, with the client that was active then. -/
structure AcceptedTask where
  task : TransportTxTask
  client : Nat
deriving DecidableEq, Repr

structure TcpServerRuntime where
  /-- the client at the other end of `clientSocket` -/
  clientSocket : Option Nat := none
  running : Bool := false
  stopping : Bool := false
  clientGeneration : Nat := 0
  accepting : Bool := false
  /-- the generations of the reads that are under way -/
  reading : List Nat := []
  posted : List AcceptedTask := []
deriving Repr

/-- How far `close` has come, with the client and the listener it has captured. -/
inductive ClosePhase where
  | captured (client listen : Option ConnectionContext)
  | joined (client listen : Option ConnectionContext)
deriving Repr

structure TcpServerTransport where
  state : TransportState := .closed
  events : List TransportEvent := []
  txCount : Nat := 0
  rxCount : Nat := 0
  runtime : TcpServerRuntime := {}
  listenContext : Option ConnectionContext := none
  clientContext : Option ConnectionContext := none
  rejectNewConnection : Bool := true
  /-- the counter behind `makeConnectionId`, which all transports share -/
  nextConnectionId : Nat := 1
  closing : Option ClosePhase := none
  emitted : List TransportEvent := []
deriving Repr

namespace TcpServerTransport

def pushEvent (s : TcpServerTransport) (event : TransportEvent) : TcpServerTransport :=
  { s with events := s.events ++ [event], emitted := s.emitted ++ [event] }

def takeEvents (s : TcpServerTransport) : TcpServerTransport × List TransportEvent :=
  ({ s with events := [] }, s.events)

def stamped (context : ConnectionContext) (nowMs : Nat) : ConnectionContext :=
  { context with timestampMs := nowMs }

/-- An event about a context that may not be there. -/
def pushEventFor (s : TcpServerTransport) (context : Option ConnectionContext)
    (event : ConnectionContext → TransportEvent) : TcpServerTransport :=
  match context with
  | some context => s.pushEvent (event context)
  | none => s

def makeListenContext (s : TcpServerTransport) (endpoint : String) (nowMs : Nat) :
    ConnectionContext where
  kind := .tcpServer
  endpoint := endpoint
  connectionId := s.nextConnectionId
  timestampMs := nowMs
  readyForIo := false

def makeClientContext (s : TcpServerTransport) (endpoint : String) (nowMs : Nat) :
    ConnectionContext where
  kind := .tcpClient
  endpoint := endpoint
  connectionId := s.nextConnectionId
  timestampMs := nowMs
  readyForIo := true

/-! ### Opening -/

inductive OpenResult where
  | wrongConfig
  | failed (bindEndpoint error : String)
  | listening (localEndpoint : String)
deriving Repr

/-- `open` after the `close` it begins with. -/
def openListener (s : TcpServerTransport) (rejectNewConnection : Bool) (nowMs : Nat) :
    OpenResult → TcpServerTransport
  | .wrongConfig =>
    { s with state := .error }.pushEvent
      (.error { kind := .tcpServer, timestampMs := nowMs, readyForIo := false } "配置类型不是 TCP Server")
  | .failed bindEndpoint error =>
    { s with
      state := .error
      rejectNewConnection := rejectNewConnection
      runtime := {}
      listenContext := none
      clientContext := none }.pushEvent
      (.error
        { kind := .tcpServer, endpoint := bindEndpoint, timestampMs := nowMs, readyForIo := false }
        error)
  | .listening localEndpoint =>
    { s with
      state := .open
      rejectNewConnection := rejectNewConnection
      listenContext := some (s.makeListenContext localEndpoint nowMs)
      nextConnectionId := s.nextConnectionId + 1
      runtime := { s.runtime with running := true, accepting := true } }.pushEvent
      (.open (s.makeListenContext localEndpoint nowMs))

/-! ### The handlers -/

/-- `async_accept` has failed; no other one is started. -/
def acceptFailed (s : TcpServerTransport) (error : String) (nowMs : Nat) : TcpServerTransport :=
  { s with runtime := { s.runtime with accepting := false } }.pushEventFor
    (if s.runtime.stopping then none else s.listenContext) fun context =>
      .error (stamped context nowMs) error

def rejectClient (s : TcpServerTransport) (nowMs : Nat) : TcpServerTransport :=
  s.pushEventFor s.listenContext fun context =>
    .error (stamped context nowMs) "已有活动连接，已拒绝新客户端"

def startClient (s : TcpServerTransport) (context : ConnectionContext) : TcpServerTransport :=
  { s with
    clientContext := some context
    nextConnectionId := s.nextConnectionId + 1
    runtime :=
      { s.runtime with
        clientSocket := some context.connectionId
        clientGeneration := s.runtime.clientGeneration + 1
        reading := s.runtime.reading ++ [s.runtime.clientGeneration + 1] } }.pushEvent (.open context)

/-- The new client takes the place of the old one. -/
def takeClient (s : TcpServerTransport) (endpoint : String) (nowMs : Nat) : TcpServerTransport :=
  (s.pushEventFor s.clientContext fun context =>
    .close (stamped context nowMs) "新客户端已接管旧连接").startClient
      (s.makeClientContext endpoint nowMs)

def rejectsClient (s : TcpServerTransport) : Bool :=
  s.clientContext.isSome && s.rejectNewConnection

def acceptClient (s : TcpServerTransport) (endpoint : String) (nowMs : Nat) : TcpServerTransport :=
  if s.rejectsClient then s.rejectClient nowMs else s.takeClient endpoint nowMs

def readFailed (s : TcpServerTransport) (error : String) (nowMs : Nat) : TcpServerTransport :=
  if s.runtime.stopping || s.clientContext.isNone then s
  else
    { s.pushEventFor s.clientContext fun context => .close (stamped context nowMs) error with
      clientContext := none }

def readBytes (s : TcpServerTransport) (bytes : List UInt8) (nowMs : Nat) : TcpServerTransport :=
  if bytes.isEmpty || s.clientContext.isNone then s
  else
    { s with rxCount := s.rxCount + bytes.length }.pushEventFor s.clientContext fun context =>
      .bytes { context := stamped context nowMs, bytes := bytes }

def endRead (s : TcpServerTransport) (generation : Nat) : TcpServerTransport :=
  { s with runtime := { s.runtime with reading := s.runtime.reading.erase generation } }

def scheduleRead (s : TcpServerTransport) (generation : Nat) : TcpServerTransport :=
  { s with runtime := { s.runtime with reading := s.runtime.reading ++ [generation] } }

/-- The read of a generation comes back.  One of an earlier client is dropped; after bytes
the next read is started. -/
def readHandler (s : TcpServerTransport) (generation : Nat) (result : Except String (List UInt8))
    (nowMs : Nat) : TcpServerTransport :=
  if generation ≠ s.runtime.clientGeneration then s.endRead generation
  else
    match result with
    | .error error => (s.endRead generation).readFailed error nowMs
    | .ok bytes => ((s.endRead generation).readBytes bytes nowMs).scheduleRead generation

/-! ### Writing -/

def recordWrite (s : TcpServerTransport) (context : ConnectionContext) (bytes : List UInt8)
    (written : Nat) (status : String) (nowMs : Nat) : TcpServerTransport :=
  let written := min written bytes.length
  { s with txCount := s.txCount + written }.pushEvent
    (.write (stamped context nowMs) (bytes.take written)
      (if written = 0 then "not_sent" else if written < bytes.length then "partial" else status))

/-- What a write on the socket comes to. -/
structure WriteResult where
  written : Nat
  error : String
  startedAtMs : Nat
  finishedAtMs : Nat
deriving Repr

def WriteResult.ok (result : WriteResult) (payload : List UInt8) : Bool :=
  result.error.isEmpty && result.written == payload.length

def writeFailed (s : TcpServerTransport) (error : String) (nowMs : Nat) : TcpServerTransport :=
  { s with state := .error }.pushEventFor s.clientContext fun context =>
    .error (stamped context nowMs) error

def writtenState (task : TransportTxTask) (result : WriteResult) : TransportTxState :=
  if !result.ok task.payload then .rejected
  else if 0 < task.timeoutMs ∧ result.startedAtMs < result.finishedAtMs ∧
      task.timeoutMs < result.finishedAtMs - result.startedAtMs then .timeout
  else .sent

def writeStatus (state : TransportTxState) : String :=
  if state = .timeout then "written_timeout" else "sent"

def recordTaskWrite (s : TcpServerTransport) (task : TransportTxTask) (result : WriteResult) :
    TcpServerTransport :=
  match s.clientContext with
  | some context =>
    s.recordWrite context task.payload result.written (writeStatus (writtenState task result))
      result.finishedAtMs
  | none => s

def txEvent (task : TransportTxTask) (result : WriteResult) : TransportTxEvent where
  requestId := task.requestId
  kind := task.kind
  state := writtenState task result
  error := result.error
  bytes := result.written
  queuedAtMs := task.queuedAtMs
  finishedAtMs := result.finishedAtMs

/-- A posted task runs. -/
def runTask (s : TcpServerTransport) (task : TransportTxTask) (result : WriteResult) :
    TcpServerTransport :=
  ((if result.ok task.payload then s else s.writeFailed result.error result.finishedAtMs)
    |>.recordTaskWrite task result).pushEvent (.tx (txEvent task result))

def runPosted (s : TcpServerTransport) (result : WriteResult) : TcpServerTransport :=
  match s.runtime.posted with
  | [] => s
  | accepted :: posted =>
    { s with runtime := { s.runtime with posted := posted } }.runTask accepted.task result

/-- The client a task is accepted for, if it is accepted. -/
def acceptsTask (s : TcpServerTransport) (task : TransportTxTask) : Option Nat :=
  match s.clientContext with
  | some context =>
    if s.state = .open ∧ task.payload ≠ [] ∧ s.runtime.stopping = false then
      some context.connectionId
    else none
  | none => none

def enqueueSend (s : TcpServerTransport) (task : TransportTxTask) : TcpServerTransport × Bool :=
  match s.acceptsTask task with
  | some client =>
    ({ s with
        runtime := { s.runtime with posted := s.runtime.posted ++ [⟨task, client⟩] } }, true)
  | none => (s, false)

/-- `send` writes at once, on the calling thread. -/
def send (s : TcpServerTransport) (bytes : List UInt8) (result : WriteResult) : TcpServerTransport :=
  match s.clientContext with
  | some context =>
    if s.state ≠ .open ∨ bytes = [] then s
    else if result.ok bytes then
      s.recordWrite context bytes result.written "sent" result.finishedAtMs
    else
      (s.recordWrite context bytes result.written "sent" result.finishedAtMs).writeFailed
        result.error result.finishedAtMs
  | none => s

/-! ### Closing -/

def closeCapture (s : TcpServerTransport) : TcpServerTransport :=
  { s with
    closing := some (.captured s.clientContext s.listenContext)
    runtime := { s.runtime with stopping := true } }

def closeJoin (s : TcpServerTransport) : TcpServerTransport :=
  match s.closing with
  | some (.captured client listen) =>
    { s with
      closing := some (.joined client listen)
      clientContext := none
      listenContext := none
      runtime := {}
      state := .closed }
  | _ => s

def closeReport (s : TcpServerTransport) (nowMs : Nat) : TcpServerTransport :=
  match s.closing with
  | some (.joined client listen) =>
    ({ s with closing := none }.pushEventFor client fun context =>
        .close (stamped context nowMs) "用户主动关闭").pushEventFor listen fun context =>
      .close (stamped context nowMs) "监听已关闭"
  | _ => s

/-! ### Runs -/

inductive ServerStep where
  | otherConnection
  | open (rejectNewConnection : Bool) (nowMs : Nat) (result : OpenResult)
  | accept (result : Except String String) (nowMs : Nat)
  | read (generation : Nat) (result : Except String (List UInt8)) (nowMs : Nat)
  | runPosted (result : WriteResult)
  | enqueueSend (task : TransportTxTask)
  | send (bytes : List UInt8) (result : WriteResult)
  | takeEvents
  | closeCapture
  | closeJoin
  | closeReport (nowMs : Nat)

/-- The handlers run on the I/O thread, for what is under way.  During `close` the program
makes no other call. -/
def step (s : TcpServerTransport) : ServerStep → TcpServerTransport
  | .otherConnection => { s with nextConnectionId := s.nextConnectionId + 1 }
  | .open rejectNewConnection nowMs result =>
    if s.closing.isNone && !s.runtime.running then
      s.openListener rejectNewConnection nowMs result
    else s
  | .accept result nowMs =>
    if s.runtime.running && s.runtime.accepting then
      match result with
      | .error error => s.acceptFailed error nowMs
      | .ok endpoint => s.acceptClient endpoint nowMs
    else s
  | .read generation result nowMs =>
    if s.runtime.running && s.runtime.reading.contains generation then
      s.readHandler generation result nowMs
    else s
  | .runPosted result => if s.runtime.running then s.runPosted result else s
  | .enqueueSend task => if s.closing.isNone then (s.enqueueSend task).1 else s
  | .send bytes result => if s.closing.isNone then s.send bytes result else s
  | .takeEvents => s.takeEvents.1
  | .closeCapture => if s.closing.isNone then s.closeCapture else s
  | .closeJoin => s.closeJoin
  | .closeReport nowMs => s.closeReport nowMs

def run (s : TcpServerTransport) (steps : List ServerStep) : TcpServerTransport :=
  steps.foldl step s

end TcpServerTransport

end ProtoScope.Transport
