/-
What the transports and the rest of the program say to each other.
-/
import Mathlib.Tactic.Common

namespace ProtoScope.Transport

inductive TransportKind where
  | tcpClient
  | tcpServer
  | udpPeer
  | serial
deriving DecidableEq, Repr

structure ConnectionContext where
  kind : TransportKind := .tcpClient
  endpoint : String := ""
  connectionId : Nat := 0
  timestampMs : Nat := 0
  readyForIo : Bool := true
deriving DecidableEq, Repr

inductive TransportTxKind where
  | send
  | request
deriving DecidableEq, Repr

inductive TransportTxState where
  | sent
  | timeout
  | rejected
  | dropped
  | canceled
deriving DecidableEq, Repr

structure TransportTxTask where
  requestId : Nat
  kind : TransportTxKind
  payload : List UInt8
  timeoutMs : Nat
  queuedAtMs : Nat
deriving DecidableEq, Repr

structure TransportTxEvent where
  requestId : Nat
  kind : TransportTxKind := .send
  state : TransportTxState := .sent
  error : String := ""
  bytes : Nat := 0
  queuedAtMs : Nat := 0
  finishedAtMs : Nat := 0
deriving DecidableEq, Repr

structure TransportBytesEvent where
  context : ConnectionContext
  bytes : List UInt8
deriving DecidableEq, Repr

inductive TransportState where
  | closed
  | opening
  | «open»
  | error
deriving DecidableEq, Repr

inductive TransportEvent where
  | «open» (context : ConnectionContext)
  | close (context : ConnectionContext) (reason : String)
  | error (context : ConnectionContext) (message : String)
  | bytes (event : TransportBytesEvent)
  | tx (event : TransportTxEvent)
  | write (context : ConnectionContext) (bytes : List UInt8) (status : String)
deriving DecidableEq, Repr

end ProtoScope.Transport
