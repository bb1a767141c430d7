/-
The raw capture of the running application: the last bytes received and sent, and the
profiles and plot setups between them.

Received and sent bytes share one limit.  When it is passed the events are trimmed from the
front: bytes go, and the control events that lie before the cut are folded into the ones
still in force there.  A recording file and the rebuild of the history, which watch the
same events, are left out.
-/
import ProtoScope.Plot.RawCaptureEvents

namespace ProtoScope.App

open ProtoScope.Data (Text text)
open ProtoScope.Plot

/-- `wave.rawCapture` -/
structure RawCapture where
  protocolName : Text := []
  protocolDir : Text := []
  capturedAtMs : UInt64 := 0
  truncated : Bool := false
  payload : List UInt8 := []
  events : List RawCaptureEvent := []
  source : Text := []
  rxOnly : Bool := true

structure CaptureState where
  rawCapture : RawCapture := {}
  retainedRawBytes : ℕ := 0
  rawEventSequence : UInt64 := 0

/-- What appending reads of the application: the protocol that is loaded, and whether a
replayed history is shown without a connection. -/
structure CaptureContext where
  protocolName : Text
  protocolDir : Text
  browsing : Bool

/-! ### Trimming -/

def applyActiveRawProfileEvent (activeProfiles : List RawCaptureEvent) (event : RawCaptureEvent) :
    List RawCaptureEvent :=
  if event.type = .profileClear ∧ event.profile.frameName = [] then []
  else
    activeProfiles.filter (fun item => item.profile.frameName ≠ event.profile.frameName) ++
      if event.type = .profileSet then [event] else []

structure TrimState where
  activeProfiles : List RawCaptureEvent := []
  activePlotSetup : Option RawCaptureEvent := none
  keptEvents : List RawCaptureEvent := []
  rxCursor : ℕ := 0

/-- A control event goes into the prefix before the cut and is kept after it. -/
def trimControl (keepStart : ℕ) (s : TrimState) (event : RawCaptureEvent) : TrimState :=
  if s.rxCursor < keepStart then
    if event.type = .profileSet ∨ event.type = .profileClear then
      { s with activeProfiles := applyActiveRawProfileEvent s.activeProfiles event }
    else if event.type = .plotSetup then { s with activePlotSetup := some event }
    else s
  else { s with keptEvents := s.keptEvents ++ [event] }

def trimBytes (keepStart : ℕ) (s : TrimState) (event : RawCaptureEvent) : TrimState :=
  if s.rxCursor + event.bytes.length ≤ keepStart ∨ event.bytes = [] then
    { s with rxCursor := s.rxCursor + event.bytes.length }
  else
    { s with
      keptEvents := s.keptEvents ++ [{ event with bytes := event.bytes.drop (keepStart - s.rxCursor) }]
      rxCursor := s.rxCursor + event.bytes.length }

def trimStep (keepStart : ℕ) (includeTx : Bool) (s : TrimState) (event : RawCaptureEvent) : TrimState :=
  if event.type = .rxBytes ∨ (includeTx = true ∧ event.type = .txBytes) then
    trimBytes keepStart s event
  else trimControl keepStart s event

def TrimState.activeEvents (s : TrimState) : List RawCaptureEvent :=
  s.activeProfiles ++ s.activePlotSetup.toList ++ s.keptEvents

def trimRawCaptureEventsToPayloadWindow (events : List RawCaptureEvent) (keepStart : ℕ)
    (includeTx : Bool) : List RawCaptureEvent :=
  (events.foldl (trimStep keepStart includeTx) {}).activeEvents

/-! ### Appending -/

/-- The bytes of the events of a kind, in order. -/
def bytesOf (kind : RawCaptureEvent → Bool) (events : List RawCaptureEvent) : List UInt8 :=
  (events.filter kind).flatMap RawCaptureEvent.bytes

def isRxEvent (event : RawCaptureEvent) : Bool := event.type = .rxBytes

def rawCaptureEventRxBytes (events : List RawCaptureEvent) : ℕ := (bytesOf isRxEvent events).length

/-- The capture with the event behind the others. -/
def pushEvent (context : CaptureContext) (event : RawCaptureEvent) (s : CaptureState) : CaptureState where
  rawCapture :=
    { s.rawCapture with
      protocolName :=
        if s.rawCapture.protocolName = [] then context.protocolName else s.rawCapture.protocolName
      protocolDir :=
        if s.rawCapture.protocolDir = [] then context.protocolDir else s.rawCapture.protocolDir
      events := s.rawCapture.events ++ [{ event with sequence := s.rawEventSequence + 1 }]
      source := text "live"
      rxOnly := if event.type = .txBytes then false else s.rawCapture.rxOnly
      capturedAtMs :=
        if s.rawCapture.capturedAtMs = 0 then event.timestampMs else s.rawCapture.capturedAtMs
      payload :=
        if event.type = .rxBytes then s.rawCapture.payload ++ event.bytes else s.rawCapture.payload }
  retainedRawBytes :=
    (if s.rawCapture.events = [] then 0 else s.retainedRawBytes) + event.bytes.length
  rawEventSequence := s.rawEventSequence + 1

/-- The shared budget of received and sent bytes. -/
def limitEvents (limit : ℕ) (s : CaptureState) : CaptureState :=
  if limit < s.retainedRawBytes then
    { s with
      rawCapture :=
        { s.rawCapture with
          events :=
            trimRawCaptureEventsToPayloadWindow s.rawCapture.events (s.retainedRawBytes - limit) true
          truncated := true
          payload :=
            bytesOf isRxEvent
              (trimRawCaptureEventsToPayloadWindow s.rawCapture.events (s.retainedRawBytes - limit) true) }
      retainedRawBytes := limit }
  else s

def appendRawCaptureEvent (context : CaptureContext) (limit : ℕ) (event : RawCaptureEvent)
    (s : CaptureState) : CaptureState :=
  if context.browsing then s else limitEvents limit (pushEvent context event s)

/-- The capture was made with another protocol. -/
def startsOver (context : CaptureContext) (capture : RawCapture) : Prop :=
  capture.payload ≠ [] ∧
    (capture.protocolDir ≠ context.protocolDir ∨ capture.protocolName ≠ context.protocolName)

instance (context : CaptureContext) (capture : RawCapture) : Decidable (startsOver context capture) :=
  inferInstanceAs (Decidable (_ ∧ _))

def identifyCapture (context : CaptureContext) (timestampMs : UInt64) (capture : RawCapture) :
    RawCapture :=
  { capture with
    capturedAtMs := if capture.events = [] then timestampMs else capture.capturedAtMs
    protocolName := context.protocolName
    protocolDir := context.protocolDir }

/-- The capture a received event is added to. -/
def liveCapture (context : CaptureContext) (timestampMs : UInt64) (capture : RawCapture) : RawCapture :=
  identifyCapture context timestampMs (if startsOver context capture then {} else capture)

/-- The older limit, on the received bytes alone. -/
def limitPayload (limit : ℕ) (s : CaptureState) : CaptureState :=
  if s.rawCapture.payload.length ≤ limit then s
  else
    { s with
      rawCapture :=
        { s.rawCapture with
          truncated := true
          events :=
            trimRawCaptureEventsToPayloadWindow s.rawCapture.events
              (rawCaptureEventRxBytes s.rawCapture.events - limit) false
          payload :=
            if limit = 0 then []
            else s.rawCapture.payload.drop (s.rawCapture.payload.length - limit) } }

def rxEvent (timestampMs : UInt64) (endpoint : Text) (bytes : List UInt8) : RawCaptureEvent where
  type := .rxBytes
  timestampMs := timestampMs
  bytes := bytes
  endpoint := endpoint

def appendLiveRawCapture (context : CaptureContext) (limit : ℕ) (timestampMs : UInt64)
    (endpoint : Text) (bytes : List UInt8) (s : CaptureState) : CaptureState :=
  limitPayload limit
    (appendRawCaptureEvent context limit (rxEvent timestampMs endpoint bytes)
      { s with rawCapture := liveCapture context timestampMs s.rawCapture })

/-! ### Runs -/

/-- Bytes, or a control event, which has none. -/
structure AppendedEvent where
  event : RawCaptureEvent
  control : isBytesEvent event = true ∨ event.bytes = [] := by decide

inductive CaptureStep where
  /-- Bytes of the connection; a replayed history is not shown any more. -/
  | live (timestampMs : UInt64) (endpoint : Text) (bytes : List UInt8)
  | append (appended : AppendedEvent)

/-- The capture, and all events that were appended since it was last empty. -/
structure Captured where
  state : CaptureState := {}
  history : List RawCaptureEvent := []

def Captured.step (limit : ℕ) (s : Captured) (step : CaptureContext × CaptureStep) : Captured :=
  match step.2 with
  | .live timestampMs endpoint bytes =>
    { state :=
        appendLiveRawCapture { step.1 with browsing := false } limit timestampMs endpoint bytes s.state
      history :=
        (if startsOver step.1 s.state.rawCapture then [] else s.history) ++
          [rxEvent timestampMs endpoint bytes] }
  | .append appended =>
    { state := appendRawCaptureEvent step.1 limit appended.event s.state
      history := if step.1.browsing then s.history else s.history ++ [appended.event] }

def Captured.run (limit : ℕ) (steps : List (CaptureContext × CaptureStep)) : Captured :=
  steps.foldl (Captured.step limit) {}

/-! ### What is in force -/

/-- The runtime profiles by frame and the plot setup, after some events. -/
@[ext]
structure InForce where
  profiles : Text → Option RawCaptureProfileEventData
  plotSetup : Option RawCapturePlotSetupEventData

def InForce.none : InForce where
  profiles := fun _ => Option.none
  plotSetup := Option.none

def InForce.apply (inForce : InForce) (event : RawCaptureEvent) : InForce :=
  match event.type with
  | .rxBytes => inForce
  | .txBytes => inForce
  | .profileSet =>
    { inForce with
      profiles := fun name =>
        if name = event.profile.frameName then some event.profile else inForce.profiles name }
  | .profileClear =>
    { inForce with
      profiles := fun name =>
        if event.profile.frameName = [] ∨ name = event.profile.frameName then Option.none
        else inForce.profiles name }
  | .plotSetup => { inForce with plotSetup := some event.plotSetup }

/-- A byte with the direction it went and what was in force. -/
structure ByteInForce where
  byte : UInt8
  type : RawCaptureEventType
  inForce : InForce

def eventBytesInForce (inForce : InForce) (event : RawCaptureEvent) : List ByteInForce :=
  if isBytesEvent event then event.bytes.map fun byte => ⟨byte, event.type, inForce⟩ else []

/-- The bytes of the events, each with what the control events before it have put in force. -/
def bytesInForce : InForce → List RawCaptureEvent → List ByteInForce
  | _, [] => []
  | inForce, event :: events =>
    eventBytesInForce inForce event ++ bytesInForce (inForce.apply event) events

end ProtoScope.App
