/-
What a script hands to the program, and what it is told about its requests.
-/
import ProtoScope.Transport.TransportTypes

namespace ProtoScope.Scripting

open ProtoScope.Transport

inductive TxRequestKind where
  | send
  | request
deriving DecidableEq, Repr

structure TxRequest where
  id : Nat := 0
  kind : TxRequestKind := .send
  connection : ConnectionContext := {}
  payload : List UInt8 := []
  timeoutMs : Nat := 1000
  tag : String := ""
  guarded : Bool := false
  attempt : Nat := 1
  maxAttempts : Nat := 1
  createdAtMs : Nat := 0
  fileJobId : Nat := 0
  fileOffset : Nat := 0
  fileTotal : Nat := 0
deriving DecidableEq, Repr

inductive TxEventState where
  | sent
  | completed
  | failed
  | timeout
  | rejected
  | dropped
  | canceled
deriving DecidableEq, Repr

structure TxEvent where
  id : Nat
  kind : TxRequestKind
  state : TxEventState
  tag : String
  bytes : Nat := 0
  queuedMs : Nat
  finishedMs : Nat
  fileJobId : Nat := 0
  offset : Nat := 0
  total : Nat := 0
  progress : Float := Float.ofBits 0
  guarded : Bool := false
  attempt : Nat := 1
  maxAttempts : Nat := 1
  guardState : Option String := none
  error : Option String := none
deriving DecidableEq, Repr

structure RequestDoneResult where
  ok : Bool := true
  message : String := ""
  timestampMs : Nat := 0
deriving DecidableEq, Repr

structure ScriptLog where
  level : String
  message : String
  timestampMs : Nat := 0
deriving DecidableEq, Repr

/-- What the host produced while the worker executed one command.  The outputs that no
modelled function looks into are kept together as `others`. -/
structure ScriptRuntimeOutputBatch where
  logs : List ScriptLog := []
  txRequests : List TxRequest := []
  requestGuardResets : List ConnectionContext := []
  requestDoneResults : List RequestDoneResult := []
  others : List String := []
  transportStats : Option String := none
deriving DecidableEq, Repr

def hasOutputs (batch : ScriptRuntimeOutputBatch) : Bool :=
  !batch.logs.isEmpty || !batch.txRequests.isEmpty || !batch.requestGuardResets.isEmpty ||
    !batch.requestDoneResults.isEmpty || !batch.others.isEmpty || batch.transportStats.isSome

end ProtoScope.Scripting
