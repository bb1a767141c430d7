/-
What becomes of the bytes the worker accepts.

The queue is first in, first out, and merging joins neighbours of one connection only; so
the bytes of a connection are executed in the order they were accepted, each once, as long
as no clearing of the queue removes some of them.  What is executed reaches the host,
except where the worker passes over a ready connection because another one is active.
-/
import Mathlib.Algebra.BigOperators.Group.List.Basic
import Mathlib.Algebra.GroupWithZero.Nat
import ProtoScope.Scripting.ScriptRuntimeWorker

namespace ProtoScope.Scripting

open ProtoScope.Transport

def isPlain : WorkerCommand → Bool
  | .bytes _ => false
  | .plain _ => true

namespace ScriptRuntimeWorker

/-! ### The bytes of one connection -/

def eventBytes (c : Nat) (event : TransportBytesEvent) : List UInt8 :=
  if event.context.connectionId = c then event.bytes else []

def commandBytes (c : Nat) : WorkerCommand → List UInt8
  | .bytes event => eventBytes c event
  | .plain _ => []

/-- The bytes of `c` the worker still has to execute. -/
def queuedBytes (c : Nat) (w : ScriptRuntimeWorker) : List UInt8 :=
  (w.popped.toList ++ w.commands).flatMap (commandBytes c)

def callBytes (c : Nat) : HostCall → List UInt8
  | .transportBytes event => eventBytes c event
  | _ => []

/-- The bytes of `c` the host has received. -/
def hostBytes (c : Nat) (w : ScriptRuntimeWorker) : List UInt8 :=
  w.host.flatMap (callBytes c)

/-- The bytes of `c` a step accepts. -/
def accepts (c : Nat) (w : ScriptRuntimeWorker) : WorkerStep → List UInt8
  | .pushBytes event _ => if event.bytes.isEmpty || w.stopping then [] else eventBytes c event
  | .tryPushBytes availableBytes event maxBytes mergeAdjacent =>
    (eventBytes c event).take (w.tryPushBytes availableBytes event maxBytes mergeAdjacent).2
  | _ => []

/-- The bytes command a step executes, and whether it is passed on to the host. -/
def executes (w : ScriptRuntimeWorker) : WorkerStep → Option (TransportBytesEvent × Bool)
  | .executeCommand _ =>
    match w.popped with
    | some (.bytes event) => some (event, deliversBytes w.activeConnectionId event)
    | _ => none
  | _ => none

/-- The step executes a close, a reload or a reset, whichever connection it is about, while
bytes of `c` are queued. -/
def clearsBytesOf (c : Nat) (w : ScriptRuntimeWorker) : WorkerStep → Bool
  | .executeCommand _ =>
    match w.popped with
    | some (.plain (.close _)) | some (.plain (.reloadProtocol _))
    | some (.plain .resetStreamReplayState) => !(w.commands.flatMap (commandBytes c)).isEmpty
    | _ => false
  | _ => false

/-- Every step of a run with the worker before it. -/
def trace : ScriptRuntimeWorker → List WorkerStep → List (ScriptRuntimeWorker × WorkerStep)
  | _, [] => []
  | w, step :: steps => (w, step) :: trace (w.step step) steps

/-- All bytes of `c` accepted in a run. -/
def acceptedBytes (c : Nat) (w : ScriptRuntimeWorker) (steps : List WorkerStep) : List UInt8 :=
  (trace w steps).flatMap fun (w, step) => w.accepts c step

/-- All bytes commands executed in a run, in order. -/
def executions (w : ScriptRuntimeWorker) (steps : List WorkerStep) :
    List (TransportBytesEvent × Bool) :=
  (trace w steps).filterMap fun (w, step) => w.executes step

/-! ### The queue -/

/-- The bytes a command brings to the count. -/
def rxLength : WorkerCommand → Nat
  | .bytes event => event.bytes.length
  | .plain _ => 0

def rxTotal (commands : List WorkerCommand) : Nat := (commands.map rxLength).sum

@[simp] theorem rxTotal_cons (command : WorkerCommand) (commands : List WorkerCommand) :
    rxTotal (command :: commands) = rxLength command + rxTotal commands := List.sum_cons

@[simp] theorem rxTotal_append (first second : List WorkerCommand) :
    rxTotal (first ++ second) = rxTotal first + rxTotal second := by
  rw [rxTotal, List.map_append, List.sum_append]
  rfl

/-- Clearing subtracts what it drops, each command at its turn, and leaves the other commands. -/
theorem clearQueuedRxLocked_eq (w : ScriptRuntimeWorker) :
    w.clearQueuedRxLocked = { w with
      commands := w.commands.filter isPlain
      pendingRxBytes := w.pendingRxBytes - rxTotal w.commands } := by
  have key : ∀ (commands : List WorkerCommand) (w : ScriptRuntimeWorker),
      commands.foldl
        (fun w command =>
          match command with
          | .bytes event =>
            { w with pendingRxBytes := w.pendingRxBytes - min w.pendingRxBytes event.bytes.length }
          | .plain _ => { w with commands := w.commands ++ [command] }) w =
        { w with
          commands := w.commands ++ commands.filter isPlain
          pendingRxBytes := w.pendingRxBytes - rxTotal commands } := by
    intro commands
    induction commands with
    | nil => simp [rxTotal]
    | cons command commands ih =>
      intro w
      cases command with
      | bytes event =>
        have hpending : w.pendingRxBytes - min w.pendingRxBytes event.bytes.length -
            rxTotal commands = w.pendingRxBytes - (event.bytes.length + rxTotal commands) := by
          omega
        rw [List.foldl_cons, ih, rxTotal_cons]
        dsimp only
        rw [hpending]
        rfl
      | plain command =>
        rw [List.foldl_cons, ih, List.filter_cons_of_pos rfl, List.append_assoc, rxTotal_cons]
        dsimp only [rxLength]
        rw [Nat.zero_add]
        rfl
  exact key w.commands { w with commands := [] }

section Queue

variable {c : Nat}

theorem mergesInto_connectionId {config : ScriptRuntimeWorkerConfig}
    {previous event : TransportBytesEvent} (h : mergesInto config previous event = true) :
    previous.context.connectionId = event.context.connectionId := by
  unfold mergesInto at h
  simp only [Bool.and_eq_true, beq_iff_eq] at h
  exact h.1.1.1

/-- The event is a command of its own at the end, or it is merged into the last one. -/
theorem appendBytes_eq (config : ScriptRuntimeWorkerConfig) (mergeAdjacent : Bool)
    (event : TransportBytesEvent) (commands : List WorkerCommand) :
    appendBytes config mergeAdjacent event commands = commands ++ [.bytes event] ∨
      ∃ front previous timestampMs, commands = front ++ [.bytes previous] ∧
        mergesInto config previous event = true ∧
        appendBytes config mergeAdjacent event commands = front ++ [.bytes
          { context := { previous.context with timestampMs }
            bytes := previous.bytes ++ event.bytes }] := by
  induction commands with
  | nil => exact .inl rfl
  | cons command rest ih =>
    by_cases hlast : ∃ previous, command = .bytes previous ∧ rest = []
    · obtain ⟨previous, rfl, rfl⟩ := hlast
      unfold appendBytes
      split
      · rename_i hmerge
        exact .inr ⟨[], previous, _, rfl, (Bool.and_eq_true_iff.mp hmerge).2, rfl⟩
      · exact .inl rfl
    · rw [appendBytes]
      · rcases ih with h | ⟨front, previous, timestampMs, rfl, hmerge, h⟩
        · exact .inl (congrArg _ h)
        · exact .inr ⟨command :: front, previous, timestampMs, rfl, hmerge, congrArg _ h⟩
      · exact fun previous hcommand hrest => hlast ⟨previous, hcommand, hrest⟩

/-- Appending, merged or not, adds the bytes at the end. -/
theorem appendBytes_bytes (config : ScriptRuntimeWorkerConfig) (mergeAdjacent : Bool)
    (event : TransportBytesEvent) (commands : List WorkerCommand) :
    (appendBytes config mergeAdjacent event commands).flatMap (commandBytes c) =
      commands.flatMap (commandBytes c) ++ eventBytes c event := by
  rcases appendBytes_eq config mergeAdjacent event commands with
    h | ⟨front, previous, timestampMs, rfl, hmerge, h⟩
  · simp [h, commandBytes]
  · rw [h]
    simp only [List.flatMap_append, List.flatMap_cons, List.flatMap_nil, List.append_nil,
      commandBytes, eventBytes, mergesInto_connectionId hmerge, List.append_assoc]
    split <;> rfl

/-- Clearing takes the bytes of every connection out of the queue and leaves the rest. -/
theorem clearQueuedRxLocked_spec (w : ScriptRuntimeWorker) :
    w.clearQueuedRxLocked.commands.flatMap (commandBytes c) = [] ∧
      w.clearQueuedRxLocked.popped = w.popped ∧ w.clearQueuedRxLocked.host = w.host := by
  rw [clearQueuedRxLocked_eq]
  refine ⟨List.flatMap_eq_nil_iff.mpr fun command hmem => ?_, rfl, rfl⟩
  cases command with
  | bytes event => exact absurd (List.mem_filter.mp hmem).2 Bool.false_ne_true
  | plain command => rfl

/-- A list without bytes of `c` has none to lose. -/
theorem flatMap_eq_nil_of_isEmpty {commands : List WorkerCommand}
    (h : (!(commands.flatMap (commandBytes c)).isEmpty) = false) :
    commands.flatMap (commandBytes c) = [] := by
  rw [Bool.not_eq_false'] at h
  exact List.isEmpty_iff.mp h

end Queue

/-! ### What the steps leave as it is -/

section Frame

variable (w : ScriptRuntimeWorker)

/-- Two workers that agree on the queue, on the command taken out and on what the host
received. -/
def SameBytes (w w' : ScriptRuntimeWorker) : Prop :=
  w'.commands = w.commands ∧ w'.popped = w.popped ∧ w'.host = w.host

/-- At most the warning changes and the outputs grow. -/
def Warns (w w' : ScriptRuntimeWorker) : Prop :=
  ∃ active outputs, w' = { w with rxBackpressureWarningActive := active, outputs := outputs }

theorem Warns.same {w w' : ScriptRuntimeWorker} (h : Warns w w') : SameBytes w w' := by
  obtain ⟨_, _, rfl⟩ := h
  exact ⟨rfl, rfl, rfl⟩

theorem pushRxBackpressureWarningLocked_warns (pendingBytes highWaterBytes : Nat) :
    Warns w (w.pushRxBackpressureWarningLocked pendingBytes highWaterBytes) := by
  unfold pushRxBackpressureWarningLocked
  split <;> exact ⟨_, _, rfl⟩

theorem warnAtHighWater_warns (highWater : Nat) : Warns w (w.warnAtHighWater highWater) := by
  unfold warnAtHighWater
  split
  · exact pushRxBackpressureWarningLocked_warns { w with rxBackpressureWarningActive := true } _ _
  · exact ⟨_, _, rfl⟩

theorem beginRxWait_warns (availableBytes : Nat) : Warns w (w.beginRxWait availableBytes) := by
  unfold beginRxWait
  split
  split
  · exact ⟨_, _, rfl⟩
  · exact pushRxBackpressureWarningLocked_warns { w with rxBackpressureWarningActive := true } _ _

theorem endWarning_warns (p : Prop) [Decidable p] :
    Warns w (if p then { w with rxBackpressureWarningActive := false } else w) := by
  split <;> exact ⟨_, _, rfl⟩

theorem endRxWait_warns (availableBytes : Nat) : Warns w (w.endRxWait availableBytes) :=
  endWarning_warns w _

/-- Part of the bytes is accepted, or none and at most the warning changes. -/
theorem tryPushBytes_warns (availableBytes : Nat) (event : TransportBytesEvent) (maxBytes : Nat)
    (mergeAdjacent : Bool) :
    let result := w.tryPushBytes availableBytes event maxBytes mergeAdjacent
    result.2 = 0 ∧ Warns w result.1 ∨
      Warns
        { w with
          commands := appendBytes w.config mergeAdjacent
            { event with bytes := event.bytes.take result.2 } w.commands
          pendingRxBytes := w.pendingRxBytes + result.2 } result.1 := by
  unfold tryPushBytes
  split
  rename_i highWater lowWater _
  split
  · exact .inl ⟨rfl, _, _, rfl⟩
  · obtain ⟨active, outputs, hended⟩ := endWarning_warns w (w.pendingRxBytes ≤ lowWater)
    rw [hended]
    dsimp only
    split
    · exact .inr (warnAtHighWater_warns _ highWater)
    · exact .inl ⟨rfl, warnAtHighWater_warns _ highWater⟩

theorem publish_same (batch : ScriptRuntimeOutputBatch) : SameBytes w (w.publish batch) := by
  unfold publish
  split
  · exact ⟨rfl, rfl, rfl⟩
  · split
    · unfold publishOutputs
      split <;> exact ⟨rfl, rfl, rfl⟩
    · exact ⟨rfl, rfl, rfl⟩

theorem subtractPendingRxBytes_warns (availableBytes bytes : Nat) :
    Warns { w with pendingRxBytes := w.pendingRxBytes - min w.pendingRxBytes bytes }
      (w.subtractPendingRxBytes availableBytes bytes) :=
  endWarning_warns _ _

end Frame

/-! ### One step -/

section Step

variable {c : Nat} {w : ScriptRuntimeWorker}

/-- The bytes of `c` among the executed ones. -/
def executedBytes (c : Nat) (executions : List (TransportBytesEvent × Bool)) : List UInt8 :=
  executions.flatMap fun execution => eventBytes c execution.1

/-- The bytes of `c` among the executed ones that are passed on to the host. -/
def deliveredBytes (c : Nat) (executions : List (TransportBytesEvent × Bool)) : List UInt8 :=
  executedBytes c (executions.filter fun execution => execution.2)

/-- What a step must do to the bytes of `c`: nothing gets lost between accepting and
executing, and the host receives what is delivered. -/
def KeepsBytes (c : Nat) (w : ScriptRuntimeWorker) (step : WorkerStep) : Prop :=
  queuedBytes c w ++ w.accepts c step =
      executedBytes c (w.executes step).toList ++ queuedBytes c (w.step step) ∧
    hostBytes c (w.step step) = hostBytes c w ++ deliveredBytes c (w.executes step).toList

/-- A step that neither accepts nor executes bytes has only to leave queue and host alone. -/
theorem KeepsBytes.of_same {step : WorkerStep} (haccepts : w.accepts c step = [])
    (hexecutes : w.executes step = none) (h : SameBytes w (w.step step)) : KeepsBytes c w step := by
  obtain ⟨hcommands, hpopped, hhost⟩ := h
  unfold KeepsBytes queuedBytes hostBytes
  rw [haccepts, hexecutes, hcommands, hpopped, hhost]
  simp [executedBytes, deliveredBytes]

theorem eventBytes_take (event : TransportBytesEvent) (count : Nat) :
    eventBytes c { event with bytes := event.bytes.take count } =
      (eventBytes c event).take count := by
  unfold eventBytes
  dsimp only
  split
  · rfl
  · rw [List.take_nil]

/-- A step that appends an event to the queue and does nothing else to it. -/
theorem KeepsBytes.of_append {step : WorkerStep} (event : TransportBytesEvent)
    (mergeAdjacent : Bool) (haccepts : w.accepts c step = eventBytes c event)
    (hexecutes : w.executes step = none)
    (hcommands : (w.step step).commands = appendBytes w.config mergeAdjacent event w.commands)
    (hpopped : (w.step step).popped = w.popped) (hhost : (w.step step).host = w.host) :
    KeepsBytes c w step := by
  unfold KeepsBytes queuedBytes hostBytes
  rw [haccepts, hexecutes, hcommands, hpopped, hhost]
  simp [executedBytes, deliveredBytes, appendBytes_bytes]

theorem pushBytes_keeps (event : TransportBytesEvent) (mergeAdjacent : Bool) :
    KeepsBytes c w (.pushBytes event mergeAdjacent) := by
  by_cases hskip : (event.bytes.isEmpty || w.stopping) = true
  · apply KeepsBytes.of_same
    · simp only [accepts, if_pos hskip]
    · rfl
    · simp only [step, pushBytes, if_pos hskip]
      exact ⟨rfl, rfl, rfl⟩
  · apply KeepsBytes.of_append event mergeAdjacent
    · simp only [accepts, if_neg hskip]
    · rfl
    · simp only [step, pushBytes, if_neg hskip]
    · simp only [step, pushBytes, if_neg hskip]
    · simp only [step, pushBytes, if_neg hskip]

theorem pushCommand_keeps (command : PlainCommand) : KeepsBytes c w (.pushCommand command) := by
  by_cases hstopping : w.stopping = true
  · apply KeepsBytes.of_same rfl rfl
    simp only [step, pushCommand, if_pos hstopping]
    exact ⟨rfl, rfl, rfl⟩
  · unfold KeepsBytes queuedBytes hostBytes
    simp only [step, pushCommand, if_neg hstopping]
    simp [accepts, executes, executedBytes, deliveredBytes, commandBytes]

theorem tryPushBytes_keeps (availableBytes : Nat) (event : TransportBytesEvent) (maxBytes : Nat)
    (mergeAdjacent : Bool) :
    KeepsBytes c w (.tryPushBytes availableBytes event maxBytes mergeAdjacent) := by
  obtain ⟨hnone, hwarns⟩ | ⟨_, _, hstep⟩ :=
    tryPushBytes_warns w availableBytes event maxBytes mergeAdjacent
  · exact KeepsBytes.of_same (by simp only [accepts, hnone, List.take_zero]) rfl hwarns.same
  · exact KeepsBytes.of_append _ mergeAdjacent (eventBytes_take event _).symm rfl
      (congrArg (·.commands) hstep) (congrArg (·.popped) hstep) (congrArg (·.host) hstep)

/-- The next command is only moved: what is queued stays the same. -/
theorem popCommand_keeps : KeepsBytes c w .popCommand := by
  have hqueue : w.popCommand.popped.toList ++ w.popCommand.commands =
      w.popped.toList ++ w.commands ∧ w.popCommand.host = w.host := by
    unfold popCommand
    split
    · rename_i hpopped hexecuted hcommands
      rw [hpopped, hcommands]
      exact ⟨rfl, rfl⟩
    · exact ⟨rfl, rfl⟩
  unfold KeepsBytes queuedBytes hostBytes
  simp only [step, hqueue.1, hqueue.2]
  simp [accepts, executes, executedBytes, deliveredBytes]

/-- A bytes command leaves the queue; the host receives it where it is delivered. -/
theorem handleHostBytesCommand_keeps (availableBytes : Nat) {event : TransportBytesEvent}
    (hpopped : w.popped = some (.bytes event)) : KeepsBytes c w (.executeCommand availableBytes) := by
  let w₀ := { w with popped := none, executed := some (.bytes event) }
  obtain ⟨_, _, hsubtract⟩ := subtractPendingRxBytes_warns w₀ availableBytes event.bytes.length
  have hexecutes : w.executes (.executeCommand availableBytes) =
      some (event, deliversBytes w.activeConnectionId event) := by
    simp only [executes, hpopped]
  have hstep : w.step (.executeCommand availableBytes) =
      w₀.handleHostBytesCommand availableBytes event := by
    simp only [step, executeCommand, hpopped]
    rfl
  have hresult : (w₀.handleHostBytesCommand availableBytes event).commands = w.commands ∧
      (w₀.handleHostBytesCommand availableBytes event).popped = none ∧
      (w₀.handleHostBytesCommand availableBytes event).host =
        w.host ++ if deliversBytes w.activeConnectionId event then [.transportBytes event] else [] := by
    unfold handleHostBytesCommand
    dsimp only
    rw [hsubtract]
    dsimp only [w₀]
    split
    · split <;> exact ⟨rfl, rfl, rfl⟩
    · exact ⟨rfl, rfl, (List.append_nil _).symm⟩
  unfold KeepsBytes queuedBytes hostBytes
  rw [hstep, hexecutes, hresult.1, hresult.2.1, hresult.2.2, hpopped]
  refine ⟨?_, ?_⟩
  · simp [accepts, executedBytes, commandBytes]
  · cases deliversBytes w.activeConnectionId event <;>
      simp [deliveredBytes, executedBytes, callBytes]

/-- Of the other commands only those that clear the queue touch it. -/
theorem executePlain_spec (w : ScriptRuntimeWorker) (command : PlainCommand) :
    (w.executePlain command).popped = w.popped ∧
      hostBytes c (w.executePlain command) = hostBytes c w ∧
      ((w.executePlain command).commands = w.commands ∨
        (w.executePlain command).commands.flatMap (commandBytes c) = [] ∧
          ((∃ directory, command = .reloadProtocol directory) ∨ command = .resetStreamReplayState ∨
            ∃ context, command = .close context)) := by
  have hcall : ∀ (w : ScriptRuntimeWorker) (call : HostCall), callBytes c call = [] →
      hostBytes c (w.call call) = hostBytes c w := by
    intro w call hbytes
    unfold hostBytes ScriptRuntimeWorker.call
    rw [List.flatMap_append, List.flatMap_singleton, hbytes, List.append_nil]
  have hclear : ∀ w : ScriptRuntimeWorker, hostBytes c w.clearQueuedRxLocked = hostBytes c w := by
    intro w
    unfold hostBytes
    rw [clearQueuedRxLocked_eq]
  induction command with
  | configure config => exact ⟨rfl, hcall w .configured rfl, .inl rfl⟩
  | budgetSettings => exact ⟨rfl, rfl, .inl rfl⟩
  | reloadProtocol directory =>
    obtain ⟨hcommands, hpopped, -⟩ := clearQueuedRxLocked_spec (c := c) w
    refine ⟨hpopped, ?_, .inr ⟨hcommands, .inl ⟨directory, rfl⟩⟩⟩
    calc hostBytes c (w.executePlain (.reloadProtocol directory))
        = hostBytes c (w.clearQueuedRxLocked.call .clearPendingRealtimeOutputs) :=
          hcall _ (.loadProtocolDirectory directory) rfl
      _ = hostBytes c w.clearQueuedRxLocked := hcall _ .clearPendingRealtimeOutputs rfl
      _ = hostBytes c w := hclear w
  | resetStreamReplayState =>
    obtain ⟨hcommands, hpopped, -⟩ := clearQueuedRxLocked_spec (c := c) w
    refine ⟨hpopped, ?_, .inr ⟨hcommands, .inr (.inl rfl)⟩⟩
    exact (hcall { w.clearQueuedRxLocked with activeConnectionId := none } .resetStreamReplayState
      rfl).trans (hclear w)
  | clearRealtimeOutputs => exact ⟨rfl, hcall w .clearPendingRealtimeOutputs rfl, .inl rfl⟩
  | «open» context =>
    unfold executePlain
    dsimp only
    split <;> exact ⟨rfl, hcall _ (.transportOpen context) rfl, .inl rfl⟩
  | close context =>
    unfold executePlain
    dsimp only
    split
    · obtain ⟨hcommands, hpopped, -⟩ := clearQueuedRxLocked_spec (c := c)
        { w.call (.transportClose context) with activeConnectionId := none }
      refine ⟨hpopped, ?_, .inr ⟨hcommands, .inr (.inr ⟨context, rfl⟩)⟩⟩
      exact (hclear _).trans (hcall w (.transportClose context) rfl)
    · obtain ⟨hcommands, hpopped, -⟩ := clearQueuedRxLocked_spec (c := c)
        (w.call (.transportClose context))
      refine ⟨hpopped, ?_, .inr ⟨hcommands, .inr (.inr ⟨context, rfl⟩)⟩⟩
      exact (hclear _).trans (hcall w (.transportClose context) rfl)
  | txEvent context event => exact ⟨rfl, hcall w (.txEvent context event) rfl, .inl rfl⟩
  | requestAwaitingCompletion active =>
    exact ⟨rfl, hcall w (.requestAwaitingCompletion active) rfl, .inl rfl⟩
  | tick currentMs => exact ⟨rfl, hcall w (.tick currentMs) rfl, .inl rfl⟩
  | hostCall name => exact ⟨rfl, hcall w (.other name) rfl, .inl rfl⟩
  | idle => exact ⟨rfl, rfl, .inl rfl⟩

/-- The other commands keep the bytes of `c` unless they clear some. -/
theorem executePlain_keeps (availableBytes : Nat) {command : PlainCommand}
    (hpopped : w.popped = some (.plain command))
    (hclears : clearsBytesOf c w (.executeCommand availableBytes) = false) :
    KeepsBytes c w (.executeCommand availableBytes) := by
  let w₀ := { w with popped := none, executed := some (.plain command) }
  have hexecutes : w.executes (.executeCommand availableBytes) = none := by
    simp only [executes, hpopped]
  have hstep : w.step (.executeCommand availableBytes) = w₀.executePlain command := by
    simp only [step, executeCommand, hpopped]
    rfl
  obtain ⟨hnone, hhost, hcommands⟩ := executePlain_spec (c := c) w₀ command
  have hbytes : (w₀.executePlain command).commands.flatMap (commandBytes c) =
      w.commands.flatMap (commandBytes c) := by
    obtain hkept | ⟨hcleared, hcommand⟩ := hcommands
    · rw [hkept]
    · rw [hcleared]
      symm
      obtain ⟨directory, rfl⟩ | rfl | ⟨context, rfl⟩ := hcommand <;>
      · simp only [clearsBytesOf, hpopped] at hclears
        exact flatMap_eq_nil_of_isEmpty hclears
  unfold KeepsBytes queuedBytes
  rw [hstep, hexecutes, hhost, hnone, hpopped, List.flatMap_append, List.flatMap_append, hbytes]
  refine ⟨?_, ?_⟩
  · simp [accepts, executedBytes, commandBytes, w₀]
  · simp [deliveredBytes, executedBytes, hostBytes, w₀]

/-- **One step.**  No step loses or reorders bytes of `c` unless it clears them. -/
theorem step_keeps (step : WorkerStep) (hclears : clearsBytesOf c w step = false) :
    KeepsBytes c w step := by
  induction step with
  | pushCommand command =>
    exact pushCommand_keeps command
  | pushBytes event mergeAdjacent => exact pushBytes_keeps event mergeAdjacent
  | tryPushBytes availableBytes event maxBytes mergeAdjacent =>
    exact tryPushBytes_keeps availableBytes event maxBytes mergeAdjacent
  | beginRxWait availableBytes => exact .of_same rfl rfl (beginRxWait_warns w availableBytes).same
  | endRxWait availableBytes => exact .of_same rfl rfl (endRxWait_warns w availableBytes).same
  | popCommand => exact popCommand_keeps
  | executeCommand availableBytes =>
    match hpopped : w.popped with
    | none =>
      apply KeepsBytes.of_same rfl
      · simp only [executes, hpopped]
      · simp only [ScriptRuntimeWorker.step, executeCommand, hpopped]
        exact ⟨rfl, rfl, rfl⟩
    | some (.bytes event) => exact handleHostBytesCommand_keeps availableBytes hpopped
    | some (.plain command) => exact executePlain_keeps availableBytes hpopped hclears
  | publish batch => exact .of_same rfl rfl (publish_same w batch)
  | drainOutputs => exact .of_same rfl rfl ⟨rfl, rfl, rfl⟩
  | drainOneOutput => exact .of_same rfl rfl ⟨rfl, rfl, rfl⟩
  | requestStop => exact .of_same rfl rfl ⟨rfl, rfl, rfl⟩

end Step

/-! ### Whole runs -/

section Run

variable {c : Nat}

theorem acceptedBytes_cons (w : ScriptRuntimeWorker) (step : WorkerStep) (steps : List WorkerStep) :
    acceptedBytes c w (step :: steps) = w.accepts c step ++ acceptedBytes c (w.step step) steps :=
  rfl

theorem executions_cons (w : ScriptRuntimeWorker) (step : WorkerStep) (steps : List WorkerStep) :
    executions w (step :: steps) = (w.executes step).toList ++ executions (w.step step) steps := by
  change ((w, step) :: trace (w.step step) steps).filterMap (fun (w, step) => w.executes step) = _
  rw [List.filterMap_cons]
  dsimp only
  cases w.executes step <;> rfl

theorem executedBytes_append (first second : List (TransportBytesEvent × Bool)) :
    executedBytes c (first ++ second) = executedBytes c first ++ executedBytes c second :=
  List.flatMap_append

theorem deliveredBytes_append (first second : List (TransportBytesEvent × Bool)) :
    deliveredBytes c (first ++ second) = deliveredBytes c first ++ deliveredBytes c second := by
  unfold deliveredBytes
  rw [List.filter_append, executedBytes_append]

/-- The accounts of a whole run, by induction on its steps. -/
theorem run_keeps (steps : List WorkerStep) (w : ScriptRuntimeWorker)
    (hclears : ∀ x ∈ trace w steps, clearsBytesOf c x.1 x.2 = false) :
    queuedBytes c w ++ acceptedBytes c w steps =
        executedBytes c (executions w steps) ++ queuedBytes c (steps.foldl step w) ∧
      hostBytes c (steps.foldl step w) = hostBytes c w ++ deliveredBytes c (executions w steps) := by
  induction steps generalizing w with
  | nil => simp [acceptedBytes, executions, trace, executedBytes, deliveredBytes]
  | cons head steps ih =>
    obtain ⟨hqueue, hhost⟩ := step_keeps head (hclears (w, head) (List.mem_cons_self ..))
    obtain ⟨hqueues, hhosts⟩ := ih (w.step head) fun x hx => hclears x (List.mem_cons_of_mem _ hx)
    rw [List.foldl_cons, acceptedBytes_cons, executions_cons, executedBytes_append,
      deliveredBytes_append]
    refine ⟨?_, ?_⟩
    · calc queuedBytes c w ++ (w.accepts c head ++ acceptedBytes c (w.step head) steps)
          = executedBytes c (w.executes head).toList ++
              (queuedBytes c (w.step head) ++ acceptedBytes c (w.step head) steps) := by
            rw [← List.append_assoc, hqueue, List.append_assoc]
        _ = _ := by rw [hqueues, List.append_assoc]
    · rw [hhosts, hhost, List.append_assoc]

/-- A command is passed over only for another connection that is active. -/
theorem passed_over {w : ScriptRuntimeWorker} {step : WorkerStep} {event : TransportBytesEvent}
    (h : w.executes step = some (event, false)) :
    event.context.readyForIo = true ∧
      ∃ active, w.activeConnectionId = some active ∧ active ≠ event.context.connectionId := by
  unfold executes at h
  split at h
  · split at h
    · rw [Option.some_inj, Prod.mk.injEq] at h
      obtain ⟨rfl, hdelivers⟩ := h
      unfold deliversBytes at hdelivers
      split at hdelivers
      · rename_i active hactive
        rw [Bool.not_eq_false', Bool.and_eq_true, bne_iff_ne] at hdelivers
        exact ⟨hdelivers.1, active, hactive, hdelivers.2⟩
      · cases hdelivers
    · cases h
  · cases h

/-- **RX delivery.**  In every order of steps in which no queued bytes of `c` are cleared,
the bytes accepted for `c` are those executed for it followed by those still queued, and
the host has received the executed ones in order, without those passed over while another
connection was active. -/
theorem accepted_bytes_delivered (c : Nat) (steps : List WorkerStep)
    (hclears : ∀ x ∈ trace {} steps, clearsBytesOf c x.1 x.2 = false) :
    acceptedBytes c {} steps =
        executedBytes c (executions {} steps) ++ queuedBytes c (run steps) ∧
      hostBytes c (run steps) = deliveredBytes c (executions {} steps) ∧
      ∀ x ∈ trace {} steps, ∀ event, x.1.executes x.2 = some (event, false) →
        event.context.readyForIo = true ∧
          ∃ active, x.1.activeConnectionId = some active ∧
            active ≠ event.context.connectionId := by
  obtain ⟨hqueue, hhost⟩ := run_keeps steps {} hclears
  exact ⟨hqueue, hhost, fun x _ event => passed_over⟩

/-- One turn of the thread. -/
def turn : List WorkerStep := [.popCommand, .executeCommand 0, .publish {}]

def pushByte (connectionId : Nat) (byte : UInt8) : WorkerStep :=
  .pushBytes { context := { connectionId := connectionId }, bytes := [byte] } true

/-- Connection 2 sends after connection 1, which was the active one, is closed. -/
def closedInTurn : List WorkerStep :=
  [.pushCommand (.configure { backpressureEnabled := false })] ++ turn ++ [pushByte 1 1] ++ turn ++
    [.pushCommand (.close { connectionId := 1 })] ++ turn ++ [pushByte 2 7, pushByte 2 8] ++ turn

theorem accepted_bytes_delivered_in_turn :
    acceptedBytes 2 {} closedInTurn = [7, 8] ∧ hostBytes 2 (run closedInTurn) = [7, 8] := by
  obtain ⟨haccepted, hhost, -⟩ := accepted_bytes_delivered 2 closedInTurn (by decide)
  rw [haccepted, hhost]
  decide

/-- Connection 1 stays active while connection 2 sends. -/
def bothOpen : List WorkerStep :=
  [.pushCommand (.configure { backpressureEnabled := false })] ++ turn ++
    [pushByte 1 1, pushByte 2 7] ++ turn ++ turn

/-- The step posts a command that closes `c`, or one that resets or reloads the host. -/
def postsEndOf (c : Nat) : WorkerStep → Bool
  | .pushCommand (.close context) => context.connectionId == c
  | .pushCommand (.reloadProtocol _) => true
  | .pushCommand .resetStreamReplayState => true
  | _ => false

/-- Not every accepted byte is delivered in the end: a ready connection is passed over while
another one is active.  Nor does a close leave the bytes of other connections alone. -/
theorem accepted_bytes_passed_over :
    (¬ ∀ c steps, (∀ step ∈ steps, postsEndOf c step = false) →
      acceptedBytes c {} steps = hostBytes c (run steps) ++ queuedBytes c (run steps)) ∧
    ¬ ∀ c steps context, (run steps).popped = some (.plain (.close context)) →
      context.connectionId ≠ c →
      queuedBytes c (run (steps ++ [.executeCommand 0])) = queuedBytes c (run steps) := by
  refine ⟨?_, ?_⟩
  · intro hdelivered
    have hbytes := hdelivered 2 bothOpen (by decide)
    revert hbytes
    decide
  · intro hkept
    have hbytes := hkept 2 [.pushCommand (.close { connectionId := 1 }), pushByte 2 7, .popCommand]
      { connectionId := 1 } rfl (by decide)
    revert hbytes
    decide

end Run

end ScriptRuntimeWorker

end ProtoScope.Scripting
