/-
Received bytes on their way to the script.

The transport's events wait in one queue, bytes that are split over several pumps in another,
which goes first.  A pump takes what its budgets and the script worker allow; what the worker
accepts is handed on, recorded and shown in one go.  Closing detaches what still waits from
its connection, so that it is handed on without being checked against the active one.

How much the worker accepts and when the time of a pump is over are arguments of the pump.
The bytes that arrived, and those handed on, recorded and shown, are kept in order.
-/
import ProtoScope.Transport.TransportTypes

namespace ProtoScope.App

open ProtoScope.Transport

structure PendingRxBytes where
  context : ConnectionContext
  bytes : List UInt8
  offset : Nat := 0
deriving DecidableEq, Repr

structure LiveRx where
  workerEnabled : Bool := true
  activeConnection : Option ConnectionContext := none
  pendingTransportEvents : List TransportEvent := []
  pendingRxByteChunks : List PendingRxBytes := []
  /-- what the transport delivered -/
  received : List UInt8 := []
  /-- what the worker took over -/
  handed : List UInt8 := []
  /-- the RX events appended to the live raw capture -/
  recorded : List UInt8 := []
  /-- the transfer rows -/
  shown : List UInt8 := []
deriving Repr

/-- What a pump meets with in each of its rounds. -/
structure PumpRounds where
  /-- how much the worker accepts, if asked -/
  accepts : Nat → Nat := fun _ => 0
  /-- whether the time is over at the end of the round -/
  late : Nat → Bool := fun _ => false

namespace LiveRx

def kTransportEventsPerPump : Nat := 256

def eventBytes : TransportEvent → List UInt8
  | .bytes event => event.bytes
  | _ => []

def chunkBytes (pending : PendingRxBytes) : List UInt8 := pending.bytes.drop pending.offset

/-- `pendingRxByteCount`. -/
def pendingRxByteCount (rx : LiveRx) : Nat :=
  (rx.pendingRxByteChunks.flatMap chunkBytes).length +
    (rx.pendingTransportEvents.flatMap eventBytes).length

/-- The bytes are posted to the worker, recorded and shown. -/
def deliver (rx : LiveRx) (bytes : List UInt8) : LiveRx :=
  { rx with
    handed := rx.handed ++ bytes
    recorded := rx.recorded ++ bytes
    shown := rx.shown ++ bytes }

/-- Bytes of a ready connection that is not the active one. -/
def foreign (rx : LiveRx) (context : ConnectionContext) : Bool :=
  context.readyForIo && rx.activeConnection.map (·.connectionId) != some context.connectionId

/-- The result is the number of bytes consumed. -/
def tryProcessLiveRxBytes (rx : LiveRx) (event : TransportBytesEvent) (maxBytes accepts : Nat) :
    LiveRx × Nat :=
  if event.bytes.isEmpty || maxBytes == 0 then (rx, 0)
  else
    let receiveLimit := min event.bytes.length maxBytes
    if rx.foreign event.context then (rx, receiveLimit)
    else
      let accepted := if rx.workerEnabled then min receiveLimit accepts else receiveLimit
      if rx.workerEnabled && accepted == 0 then (rx, 0)
      else
        let rx := rx.deliver (event.bytes.take accepted)
        let rx :=
          if event.context.readyForIo then { rx with activeConnection := some event.context }
          else rx
        (rx, accepted)

def processTransportBytesEvent (rx : LiveRx) (event : TransportBytesEvent) (accepts : Nat) :
    LiveRx :=
  if event.bytes.isEmpty then rx
  else if event.context.readyForIo then
    (rx.tryProcessLiveRxBytes event event.bytes.length accepts).1
  else rx.deliver event.bytes

/-- `processTransportEvent`, as far as it concerns the active connection and received bytes. -/
def processTransportEvent (rx : LiveRx) (accepts : Nat) : TransportEvent → LiveRx
  | .open context =>
    if context.readyForIo then { rx with activeConnection := some context } else rx
  | .close context _ =>
    if rx.activeConnection.map (·.connectionId) = some context.connectionId then
      { rx with activeConnection := none }
    else rx
  | .bytes event => rx.processTransportBytesEvent event accepts
  | _ => rx

def processPendingRxBytes (rx : LiveRx) (maxBytes accepts : Nat) : LiveRx :=
  match rx.pendingRxByteChunks with
  | [] => rx
  | pending :: rest =>
    if maxBytes = 0 then rx
    else
      let chunkSize := min (pending.bytes.length - pending.offset) maxBytes
      let chunk : TransportBytesEvent :=
        { context := pending.context
          bytes := (pending.bytes.drop pending.offset).take chunkSize }
      let live := rx.workerEnabled && pending.context.readyForIo
      let (rx, acceptedBytes) :=
        if live then rx.tryProcessLiveRxBytes chunk chunkSize accepts else (rx, chunkSize)
      if acceptedBytes = 0 then rx
      else
        let rx := if live then rx else rx.processTransportEvent accepts (.bytes chunk)
        let pending := { pending with offset := pending.offset + acceptedBytes }
        { rx with
          pendingRxByteChunks :=
            if pending.bytes.length ≤ pending.offset then rest else pending :: rest }

structure Drain where
  rx : LiveRx
  processedEvents : Nat := 0
  processedRxBytes : Nat := 0

/-- One round of `drainTransportEventQueues`, and whether another one follows. -/
def drainRound (rounds : PumpRounds) (maxRxBytes round : Nat) (drain : Drain) : Drain × Bool :=
  let rx := drain.rx
  if rx.pendingRxByteChunks ≠ [] then
    if maxRxBytes ≤ drain.processedRxBytes then (drain, false)
    else
      let before := rx.pendingRxByteCount
      let rx := rx.processPendingRxBytes (maxRxBytes - drain.processedRxBytes)
        (rounds.accepts round)
      let after := rx.pendingRxByteCount
      let drain :=
        { drain with
          rx := rx
          processedRxBytes := drain.processedRxBytes + (before - after) }
      if before = after then (drain, false)
      else ({ drain with processedEvents := drain.processedEvents + 1 }, !rounds.late round)
  else
    match rx.pendingTransportEvents with
    | [] => (drain, false)
    | .bytes event :: events =>
      if event.bytes.isEmpty then
        ({ drain with
            rx := { rx with pendingTransportEvents := events }
            processedEvents := drain.processedEvents + 1 }, !rounds.late round)
      else if rx.workerEnabled && event.context.readyForIo then
        if rx.foreign event.context then
          ({ drain with
              rx := { rx with pendingTransportEvents := events }
              processedEvents := drain.processedEvents + 1 }, !rounds.late round)
        else
          let (rx, accepted) := rx.tryProcessLiveRxBytes event (maxRxBytes - drain.processedRxBytes)
            (rounds.accepts round)
          if accepted = 0 then ({ drain with rx := rx }, false)
          else
            let rest :=
              if accepted = event.bytes.length then events
              else .bytes { event with bytes := event.bytes.drop accepted } :: events
            ({ rx := { rx with pendingTransportEvents := rest }
               processedEvents := drain.processedEvents + 1
               processedRxBytes := drain.processedRxBytes + accepted }, !rounds.late round)
      else
        -- `enqueuePendingRxBytes`; this round does not count
        ({ drain with
            rx :=
              { rx with
                pendingTransportEvents := events
                pendingRxByteChunks := rx.pendingRxByteChunks ++
                  [{ context := event.context, bytes := event.bytes }] } },
          true)
    | event :: events =>
      ({ drain with
          rx := { rx with pendingTransportEvents := events }.processTransportEvent
            (rounds.accepts round) event
          processedEvents := drain.processedEvents + 1 }, !rounds.late round)

/-- A round that goes on counts, or takes an event from the queue, so this many are enough. -/
def drainLoop (rounds : PumpRounds) (maxRxBytes : Nat) : Nat → Nat → Drain → Drain
  | 0, _, drain => drain
  | fuel + 1, round, drain =>
    if kTransportEventsPerPump ≤ drain.processedEvents then drain
    else
      match drainRound rounds maxRxBytes round drain with
      | (drain, true) => drainLoop rounds maxRxBytes fuel (round + 1) drain
      | (drain, false) => drain

def drainFuel (drain : Drain) : Nat :=
  kTransportEventsPerPump - drain.processedEvents + drain.rx.pendingTransportEvents.length

def drainTransportEventQueues (rx : LiveRx) (rounds : PumpRounds) (maxRxBytes : Nat) : LiveRx :=
  (drainLoop rounds maxRxBytes (drainFuel { rx := rx }) 0 { rx := rx }).rx

/-- `pullTransportEventsFromTransport`. -/
def pullTransportEvents (rx : LiveRx) (events : List TransportEvent) : LiveRx :=
  { rx with
    pendingTransportEvents := rx.pendingTransportEvents ++ events
    received := rx.received ++ events.flatMap eventBytes }

def detach (context : ConnectionContext) : ConnectionContext := { context with readyForIo := false }

def detachChunk (pending : PendingRxBytes) : PendingRxBytes :=
  { pending with context := detach pending.context }

def detachEvent : TransportEvent → Option PendingRxBytes
  | .bytes event =>
    if event.bytes.isEmpty then none
    else some { context := detach event.context, bytes := event.bytes }
  | _ => none

def detachPendingRealtimeBacklogFromConnection (rx : LiveRx) : LiveRx :=
  { rx with
    pendingRxByteChunks :=
      rx.pendingRxByteChunks.map detachChunk ++ rx.pendingTransportEvents.filterMap detachEvent
    pendingTransportEvents := [] }

/-- `closeTransport`, where the backlog is kept. -/
def closeTransport (rx : LiveRx) : LiveRx :=
  { rx with activeConnection := none }.detachPendingRealtimeBacklogFromConnection

/-! ### Runs -/

inductive LiveRxStep where
  | receive (events : List TransportEvent)
  | pump (rounds : PumpRounds) (maxRxBytes : Nat)
  | closeTransport
  | setWorkerEnabled (enabled : Bool)

def step (rx : LiveRx) : LiveRxStep → LiveRx
  | .receive events => rx.pullTransportEvents events
  | .pump rounds maxRxBytes => rx.drainTransportEventQueues rounds maxRxBytes
  | .closeTransport => rx.closeTransport
  | .setWorkerEnabled enabled => { rx with workerEnabled := enabled }

def run (rx : LiveRx) (steps : List LiveRxStep) : LiveRx :=
  steps.foldl step rx

end LiveRx

end ProtoScope.App
