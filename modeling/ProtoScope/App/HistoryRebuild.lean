/-
Rebuilding the rows of frames from the recorded history.

A rebuild starts from fresh parsers, one for each direction, and walks the recorded events.
Each turn of a pump feeds one slice of the event at hand: what is left of it, what the pump
may still feed, and at most half the parser's capacity.  A pump stops at its limits or when
its time is up, and the next one goes on where it stopped; when that is, is a choice of the
environment.  Following events and rows as a source are left out.
-/
import ProtoScope.Scripting.FrameStreamParser

namespace ProtoScope.App

open ProtoScope.Scripting

def kTransportEventsPerPump : Nat := 256

def kTransportBytesPerPump : Nat := 64 * 1024

inductive TransferDirection where
  | rx
  | tx
deriving DecidableEq

/-- An event of the capture. -/
inductive HistoryEvent where
  | bytes (direction : TransferDirection) (input : List UInt8)
  | profileSet (frameName : String) (profile : StreamRuntimeProfile)
  /-- `none` is an empty frame name -/
  | profileClear (frameName : Option String)
  | plotSetup

/-- A row of the rebuilt log: a frame, or the bytes of a slice that gave none. -/
inductive HistoryRow where
  | frame (direction : TransferDirection) (frame : StreamParsedFrame)
  | raw (direction : TransferDirection) (bytes : List UInt8)
deriving DecidableEq

def HistoryRow.frame? : HistoryRow → Option StreamParsedFrame
  | .frame _ parsed => some parsed
  | .raw _ _ => none

structure TransferFrameParserState where
  rx : FrameStreamParser
  tx : FrameStreamParser

namespace TransferFrameParserState

def parser (state : TransferFrameParserState) : TransferDirection → FrameStreamParser
  | .rx => state.rx
  | .tx => state.tx

def setParser (state : TransferFrameParserState) (direction : TransferDirection)
    (parser : FrameStreamParser) : TransferFrameParserState :=
  match direction with
  | .rx => { state with rx := parser }
  | .tx => { state with tx := parser }

/-- Both parsers take the profile, or the rebuild is given up. -/
def setRuntimeProfile (state : TransferFrameParserState) (frameName : String)
    (profile : StreamRuntimeProfile) : Option TransferFrameParserState :=
  match state.rx.setRuntimeProfile frameName profile, state.tx.setRuntimeProfile frameName profile with
  | .ok rx, .ok tx => some ⟨rx, tx⟩
  | _, _ => none

def clearRuntimeProfile (state : TransferFrameParserState) (frameName : Option String) :
    Option TransferFrameParserState :=
  match state.rx.clearRuntimeProfile frameName, state.tx.clearRuntimeProfile frameName with
  | .ok rx, .ok tx => some ⟨rx, tx⟩
  | _, _ => none

end TransferFrameParserState

/-- `HistoryRebuildTask`, with the counters of the pump that is running. -/
structure HistoryRebuildTask where
  parser : TransferFrameParserState
  eventCursor : Nat := 0
  byteOffset : Nat := 0
  rebuilt : List HistoryRow := []
  events : Nat := 0
  bytes : Nat := 0

namespace HistoryRebuildTask

/-- `keepRow`: the oldest row goes when the limit is passed. -/
def keepRow (transferFrameLimit : Nat) (rebuilt : List HistoryRow) (row : HistoryRow) :
    List HistoryRow :=
  if transferFrameLimit = 0 then rebuilt
  else
    let kept := rebuilt ++ [row]
    kept.drop (kept.length - transferFrameLimit)

/-- The rows a batch gives: its frames, or the slice itself. -/
def batchRows (direction : TransferDirection) (slice : List UInt8) (batch : StreamParseBatch) :
    List HistoryRow :=
  if batch.frames = [] ∧ (batch.errors ≠ [] ∨ direction = .tx ∧ batch.bufferSize = 0) then
    [.raw direction slice]
  else batch.frames.map (.frame direction)

/-- How much of an event the next turn feeds. -/
def sliceAmount (task : HistoryRebuildTask) (direction : TransferDirection) (input : List UInt8) :
    Nat :=
  min (input.length - task.byteOffset) (min (kTransportBytesPerPump - task.bytes)
    (max 1 ((task.parser.parser direction).bufferDefinition.capacity / 2)))

def slice (task : HistoryRebuildTask) (direction : TransferDirection) (input : List UInt8) :
    List UInt8 :=
  (input.drop task.byteOffset).take (task.sliceAmount direction input)

/-- The event is done. -/
def advance (task : HistoryRebuildTask) : HistoryRebuildTask :=
  { task with byteOffset := 0, events := task.events + 1, eventCursor := task.eventCursor + 1 }

def pushSlice (transferFrameLimit : Nat) (task : HistoryRebuildTask)
    (direction : TransferDirection) (input : List UInt8) : HistoryRebuildTask :=
  let amount := task.sliceAmount direction input
  let slice := task.slice direction input
  let pushed := (task.parser.parser direction).pushBytes slice
  let task :=
    { task with
      parser := task.parser.setParser direction pushed.1
      rebuilt := (batchRows direction slice pushed.2).foldl (keepRow transferFrameLimit) task.rebuilt
      byteOffset := task.byteOffset + amount
      bytes := task.bytes + amount }
  if task.byteOffset < input.length then { task with events := task.events + 1 } else task.advance

/-- One turn of the loop of `pumpHistoryRebuild`; `none` gives the rebuild up. -/
def turn (transferFrameLimit : Nat) (history : List HistoryEvent) (task : HistoryRebuildTask) :
    Option HistoryRebuildTask :=
  match history[task.eventCursor]? with
  | none => some task
  | some (.bytes direction input) => some (task.pushSlice transferFrameLimit direction input)
  | some (.profileSet frameName profile) =>
    (task.parser.setRuntimeProfile frameName profile).map fun parser =>
      { task with parser := parser }.advance
  | some (.profileClear frameName) =>
    (task.parser.clearRuntimeProfile frameName).map fun parser =>
      { task with parser := parser }.advance
  | some .plotSetup => some task.advance

/-- The loop's condition, but for the clock. -/
def mayTurn (task : HistoryRebuildTask) : Prop :=
  task.events < kTransportEventsPerPump ∧ task.bytes < kTransportBytesPerPump

instance (task : HistoryRebuildTask) : Decidable task.mayTurn :=
  inferInstanceAs (Decidable (_ ∧ _))

/-- What the environment decides: the clock grants a turn, or the pump returns and the next
one starts. -/
inductive PumpChoice where
  | turn
  | nextPump
deriving DecidableEq

def step (transferFrameLimit : Nat) (history : List HistoryEvent) (task : HistoryRebuildTask) :
    PumpChoice → Option HistoryRebuildTask
  | .nextPump => some { task with events := 0, bytes := 0 }
  | .turn => if task.mayTurn then task.turn transferFrameLimit history else some task

/-- The pumps of a rebuild. -/
def run (transferFrameLimit : Nat) (history : List HistoryEvent) :
    List PumpChoice → HistoryRebuildTask → Option HistoryRebuildTask
  | [], task => some task
  | choice :: choices, task =>
    (task.step transferFrameLimit history choice).bind (run transferFrameLimit history choices)

/-- `beginHistoryRebuild`: fresh parsers for the schema. -/
def begin (buffer : StreamBufferDefinition) (frames : List StreamFrameDefinition) :
    HistoryRebuildTask where
  parser := ⟨.create buffer frames, .create buffer frames⟩

end HistoryRebuildTask

end ProtoScope.App
