/-
The dialogs that wait for an answer.

Dialogs come from the script, numbered by a counter of the host, and from the application, which
takes the time in milliseconds for the number.  A dialog with a dedupe key is dropped while its
key is blocked.  The open dialogs are kept by number, the blocked keys with the number of their
dialog; an answer goes to the script with the connection that is kept under its number, and the
host passes it on to `on_dialog` only if it is for the runtime of the script that is loaded.

The texts of a dialog are for display and are not followed here.
-/
import ProtoScope.Library.KeyedRows
import ProtoScope.Transport.TransportTypes

namespace ProtoScope.App

open ProtoScope.Library
open ProtoScope.Transport (ConnectionContext)

structure DialogRequest where
  id : ℕ
  connection : ConnectionContext
  dedupeKey : String := ""
  createdAtMs : ℕ
  runtimeGeneration : ℕ := 0
deriving DecidableEq, Repr

structure DialogEvent where
  id : ℕ
  state : String
  runtimeGeneration : Option ℕ := none
deriving DecidableEq, Repr

structure StreamBufferAlertState where
  connectionId : ℕ := 0
  popupMuted : Bool := false
  popupOpen : Bool := false
deriving DecidableEq, Repr

/-- The dialogs of the application, with the answers it posted to the script. -/
structure DialogRegistry where
  pendingDialogs : List DialogRequest := []
  openDialogs : List (ℕ × DialogRequest) := []
  dialogDedupeKeys : List (String × ℕ) := []
  streamBufferAlertState : StreamBufferAlertState := {}
  posted : List (ConnectionContext × DialogEvent) := []
deriving DecidableEq

namespace DialogRegistry

def overflowKey : String := "protocol.tx.overflow"

def nearOverflowKey : String := "receive.stream_buffer.near_overflow"

/-- Whether a request is dropped. -/
def blocks (registry : DialogRegistry) (key : String) : Bool :=
  key ≠ "" && (KeyedRows.find key registry.dialogDedupeKeys).isSome

def enqueueDialogRequest (registry : DialogRegistry) (request : DialogRequest) : DialogRegistry :=
  if registry.blocks request.dedupeKey then registry
  else
    { registry with
      pendingDialogs := registry.pendingDialogs ++ [request]
      openDialogs := KeyedRows.upsert request.id request registry.openDialogs
      dialogDedupeKeys :=
        if request.dedupeKey ≠ "" then
          KeyedRows.upsert request.dedupeKey request.id registry.dialogDedupeKeys
        else registry.dialogDedupeKeys }

def drainDialogRequests (registry : DialogRegistry) : List DialogRequest × DialogRegistry :=
  (registry.pendingDialogs, { registry with pendingDialogs := [] })

/-- `postDialogEvent`: an event without a runtime is for the one of the snapshot. -/
def postDialogEvent (registry : DialogRegistry) (runtimeGeneration : ℕ)
    (connection : ConnectionContext) (event : DialogEvent) : DialogRegistry :=
  let event := { event with
    runtimeGeneration := some (event.runtimeGeneration.getD runtimeGeneration) }
  { registry with posted := registry.posted ++ [(connection, event)] }

def answerNearOverflow (registry : DialogRegistry) (request : DialogRequest)
    (event : DialogEvent) : DialogRegistry :=
  if request.dedupeKey = nearOverflowKey then
    { registry with
      streamBufferAlertState :=
        if event.state = "mute_until_disconnect" then
          { registry.streamBufferAlertState with
            popupOpen := false
            popupMuted := true
            connectionId := request.connection.connectionId }
        else { registry.streamBufferAlertState with popupOpen := false } }
  else registry

def respondDialog (registry : DialogRegistry) (runtimeGeneration : ℕ) (event : DialogEvent) :
    DialogRegistry :=
  match KeyedRows.find event.id registry.openDialogs with
  | none => registry
  | some request =>
    let answered := registry.answerNearOverflow request event
    let closed :=
      { answered with
        dialogDedupeKeys :=
          if request.dedupeKey ≠ "" then
            KeyedRows.erase request.dedupeKey answered.dialogDedupeKeys
          else answered.dialogDedupeKeys
        openDialogs := KeyedRows.erase event.id answered.openDialogs }
    closed.postDialogEvent runtimeGeneration request.connection
      { event with runtimeGeneration := some request.runtimeGeneration }

/-- A full transmit queue; `popupOnce` is whether `overflowNotify` asks for a dialog. -/
def notifyTxOverflow (registry : DialogRegistry) (popupOnce : Bool) (nowMs : ℕ)
    (activeConnection : Option ConnectionContext) : DialogRegistry :=
  if popupOnce then
    registry.enqueueDialogRequest
      { id := nowMs
        connection := activeConnection.getD {}
        dedupeKey := overflowKey
        createdAtMs := nowMs }
  else registry

/-- What `handleStreamBufferAlert` looks at in a batch and in the settings; `nearOverflow` is
whether the share of the buffer that is used reaches the threshold. -/
structure StreamBufferReport where
  bufferCapacity : ℕ
  overflowed : Bool
  nearOverflow : Bool
  definitionPopupEnabled : Bool
  configPopupEnabled : Bool

def handleStreamBufferAlert (registry : DialogRegistry) (context : ConnectionContext)
    (report : StreamBufferReport) (nowMs : ℕ) : DialogRegistry :=
  if report.bufferCapacity = 0 || report.overflowed then registry
  else if !report.nearOverflow then registry
  else
    let registry :=
      if registry.streamBufferAlertState.connectionId ≠ context.connectionId then
        { registry with
          streamBufferAlertState :=
            { connectionId := context.connectionId, popupMuted := false, popupOpen := false } }
      else registry
    if !report.definitionPopupEnabled || !report.configPopupEnabled ||
        registry.streamBufferAlertState.popupMuted ||
        registry.streamBufferAlertState.popupOpen then registry
    else
      let registry := registry.enqueueDialogRequest
        { id := nowMs
          connection := context
          dedupeKey := nearOverflowKey
          createdAtMs := nowMs }
      { registry with
        streamBufferAlertState := { registry.streamBufferAlertState with popupOpen := true } }

def resetStreamBufferAlertState (registry : DialogRegistry) (connectionId : ℕ) : DialogRegistry :=
  if connectionId ≠ 0 && registry.streamBufferAlertState.connectionId ≠ connectionId then registry
  else { registry with streamBufferAlertState := {} }

end DialogRegistry

/-- `ScriptHost::onDialogEvent`: whether the callback is called. -/
def callsOnDialog (runtimeGeneration : ℕ) (event : DialogEvent) : Bool :=
  match event.runtimeGeneration with
  | none => true
  | some generation => decide (generation = runtimeGeneration)

/-! ### The script, the application and the dialogs on the screen -/

/-- The registry, the counter of the host, and the dialogs that were handed to the user and are
not answered. -/
structure DialogSystem where
  registry : DialogRegistry := {}
  nextDialogId : ℕ := 1
  handed : List DialogRequest := []
deriving DecidableEq

/-- What can happen; the answer names a dialog by its place among those on the screen.  A request
of the script that is refused takes a number too. -/
inductive DialogStep where
  | script (refused : ℕ) (connection : ConnectionContext) (dedupeKey : String)
      (createdAtMs : ℕ)
  | txOverflow (popupOnce : Bool) (nowMs : ℕ) (activeConnection : Option ConnectionContext)
  | streamBufferAlert (context : ConnectionContext)
      (report : DialogRegistry.StreamBufferReport) (nowMs : ℕ)
  | resetAlert (connectionId : ℕ)
  | drain
  | respond (position : ℕ) (state : String)

namespace DialogSystem

/-- The request of the script with the number it gets. -/
def scriptRequest (system : DialogSystem) (runtimeGeneration refused : ℕ)
    (connection : ConnectionContext) (dedupeKey : String) (createdAtMs : ℕ) : DialogRequest where
  id := system.nextDialogId + refused
  connection := connection
  dedupeKey := dedupeKey
  createdAtMs := createdAtMs
  runtimeGeneration := runtimeGeneration

def step (runtimeGeneration : ℕ) (system : DialogSystem) : DialogStep → DialogSystem
  | .script refused connection dedupeKey createdAtMs =>
    { system with
      registry := system.registry.enqueueDialogRequest
        (system.scriptRequest runtimeGeneration refused connection dedupeKey createdAtMs)
      nextDialogId := system.nextDialogId + refused + 1 }
  | .txOverflow popupOnce nowMs activeConnection =>
    { system with registry := system.registry.notifyTxOverflow popupOnce nowMs activeConnection }
  | .streamBufferAlert context report nowMs =>
    { system with registry := system.registry.handleStreamBufferAlert context report nowMs }
  | .resetAlert connectionId =>
    { system with registry := system.registry.resetStreamBufferAlertState connectionId }
  | .drain =>
    { system with
      registry := system.registry.drainDialogRequests.2
      handed := system.handed ++ system.registry.drainDialogRequests.1 }
  | .respond position state =>
    match system.handed[position]? with
    | none => system
    | some dialog =>
      { system with
        registry := system.registry.respondDialog runtimeGeneration { id := dialog.id, state := state }
        handed := system.handed.eraseIdx position }

def run (runtimeGeneration : ℕ) (steps : List DialogStep) : DialogSystem :=
  steps.foldl (step runtimeGeneration) {}

/-- The dialogs that are not answered, on the screen or on their way there. -/
def unanswered (system : DialogSystem) : List DialogRequest :=
  system.handed ++ system.registry.pendingDialogs

end DialogSystem

end ProtoScope.App
