/-
What becomes of the tasks the TCP server accepts.

Every one is answered by one event of its own, in the order they were accepted, whatever
else happens.  The rest is a matter of when the task runs: it runs against the socket and
the context that are current by then, and a write that fails puts the whole transport in an
error state that nothing but `open` leaves.  So the bytes are those of the client the task
was accepted for, and the next client can be sent to, in the runs where no client has taken
the place of another under a task that is still posted, and no write fails that a client
depends on.
-/
import Mathlib.Data.List.Induction
import ProtoScope.Proofs.Transport.ServerEvents

namespace ProtoScope.Transport

open TcpServerTransport

namespace TcpServerTransport

/-! ### The system: a listener that stays open -/

/-- A transport that has been closed opens again.  The events that count are those from here. -/
def listening (s : TcpServerTransport) (rejectNewConnection : Bool) (nowMs : Nat)
    (localEndpoint : String) : TcpServerTransport :=
  { s with
    runtime := {}
    listenContext := none
    clientContext := none
    closing := none
    emitted := [] }.openListener rejectNewConnection nowMs (.listening localEndpoint)

/-- What happens while the listener stays open. -/
def ServerStep.isTraffic : ServerStep → Bool
  | .open .. | .closeCapture | .closeJoin | .closeReport .. => false
  | _ => true

/-- A client is connected: its opening was reported and no close of it. -/
def Connected (events : List TransportEvent) (id : Nat) : Prop :=
  (∃ context : ConnectionContext, TransportEvent.open context ∈ events ∧
      context.connectionId = id ∧ context.readyForIo = true) ∧
    ∀ (context : ConnectionContext) (reason : String),
      TransportEvent.close context reason ∈ events → context.connectionId ≠ id

/-- The tasks a run accepts, in order. -/
def acceptedTasks (s : TcpServerTransport) : List ServerStep → List TransportTxTask
  | [] => []
  | .enqueueSend task :: steps =>
    (if s.closing.isNone && (s.enqueueSend task).2 then [task] else []) ++
      acceptedTasks (s.step (.enqueueSend task)) steps
  | step :: steps => acceptedTasks (s.step step) steps

/-- What names a task, also in the event that answers it. -/
def answerOf (task : TransportTxTask) : Nat × TransportTxKind × Nat :=
  (task.requestId, task.kind, task.queuedAtMs)

def answers (events : List TransportEvent) : List (Nat × TransportTxKind × Nat) :=
  events.filterMap fun
    | .tx event => some (event.requestId, event.kind, event.queuedAtMs)
    | _ => none

/-- A task that runs writes to the client it was accepted for and to no other, and records
its write for no other. -/
def RoutesWrite (s : TcpServerTransport) : ServerStep → Prop
  | .runPosted result => ∀ accepted posted, s.runtime.posted = accepted :: posted →
      (0 < result.written → s.runtime.clientSocket = some accepted.client) ∧
        ∀ events, (s.step (.runPosted result)).emitted = s.emitted ++ events →
          ∀ context bytes status, TransportEvent.write context bytes status ∈ events →
            context.connectionId = accepted.client
  | _ => True

def RunRoutesWrites : TcpServerTransport → List ServerStep → Prop
  | _, [] => True
  | s, step :: steps => RoutesWrite s step ∧ RunRoutesWrites (s.step step) steps

/-- What the server owes the program after a run. -/
structure WritesServed (s : TcpServerTransport) (steps : List ServerStep) : Prop where
  accepts : ∀ id, Connected (s.run steps).emitted id →
    ∀ task : TransportTxTask, task.payload ≠ [] → ((s.run steps).enqueueSend task).2 = true
  answered : answers (s.run steps).emitted ++
      (s.run steps).runtime.posted.map (fun accepted => answerOf accepted.task) =
    (acceptedTasks s steps).map answerOf
  routed : RunRoutesWrites s steps

/-! ### What the watch says about a client -/

/-- A client that was opened is open or was closed. -/
theorem opened_or_closed {events : List TransportEvent} {w : Watch}
    (hwatched : Watch.watched events = some w) {context : ConnectionContext}
    (hopen : TransportEvent.open context ∈ events) (hready : context.readyForIo = true) :
    w.client = some context.connectionId ∨
      ∃ (closed : ConnectionContext) (reason : String),
        TransportEvent.close closed reason ∈ events ∧
          closed.connectionId = context.connectionId := by
  induction events using List.reverseRecOn generalizing w with
  | nil => cases hopen
  | append_singleton events event ih =>
    rw [Watch.watched_concat] at hwatched
    obtain ⟨before, hbefore, hwatch⟩ := Option.bind_eq_some_iff.mp hwatched
    have hearlier (hmem : TransportEvent.open context ∈ events) :
        before.client = some context.connectionId ∨
          ∃ (closed : ConnectionContext) (reason : String),
            TransportEvent.close closed reason ∈ events ++ [event] ∧
              closed.connectionId = context.connectionId := by
      obtain hclient | ⟨closed, reason, hclose, hid⟩ := ih hbefore hmem
      · exact .inl hclient
      · exact .inr ⟨closed, reason, List.mem_append_left _ hclose, hid⟩
    obtain hmem | hmem := List.mem_append.mp hopen
    · -- the client was opened before; only its close ends it
      obtain hclient | hclosed := hearlier hmem
      · cases event with
        | «open» opened =>
          replace hwatch : before.opened opened = some w := hwatch
          unfold Watch.opened at hwatch
          rw [hclient, Option.isSome_some, Bool.or_true, if_pos rfl] at hwatch
          cases hwatch
        | close closed reason =>
          replace hwatch : before.closed closed = some w := hwatch
          unfold Watch.closed at hwatch
          split at hwatch
          · rename_i hsame
            refine .inr ⟨closed, reason, List.mem_append_right _ (List.mem_singleton.mpr rfl), ?_⟩
            exact Option.some.inj (hsame.symm.trans hclient)
          · rw [hclient, if_neg (fun hnone => Bool.noConfusion hnone.1)] at hwatch
            cases hwatch
        | bytes event =>
          replace hwatch : (if before.client = some event.context.connectionId then some before
            else none) = some w := hwatch
          split at hwatch
          · exact .inl (Option.some.inj hwatch ▸ hclient)
          · cases hwatch
        | error => exact .inl (Option.some.inj hwatch ▸ hclient)
        | tx => exact .inl (Option.some.inj hwatch ▸ hclient)
        | write => exact .inl (Option.some.inj hwatch ▸ hclient)
      · exact .inr hclosed
    · obtain rfl := List.mem_singleton.mp hmem
      replace hwatch : before.opened context = some w := hwatch
      unfold Watch.opened at hwatch
      rw [hready, if_pos rfl] at hwatch
      split at hwatch
      · cases hwatch
      · split at hwatch
        · exact .inl (Option.some.inj hwatch ▸ rfl)
        · cases hwatch

/-- A client that is connected is the one the watch has open. -/
theorem client_of_connected {events : List TransportEvent} {w : Watch}
    (hwatched : Watch.watched events = some w) {id : Nat} (hconnected : Connected events id) :
    w.client = some id := by
  obtain ⟨⟨context, hopen, hid, hready⟩, hnever⟩ := hconnected
  obtain hclient | ⟨closed, reason, hclose, hsame⟩ := opened_or_closed hwatched hopen hready
  · rw [hclient, hid]
  · exact absurd (hsame.trans hid) (hnever closed reason hclose)

/-! ### Every accepted task is answered once -/

section Answers

variable {s : TcpServerTransport}

/-- The answered tasks and the posted ones. -/
def answerLine (s : TcpServerTransport) : List (Nat × TransportTxKind × Nat) :=
  answers s.emitted ++ s.runtime.posted.map fun accepted => answerOf accepted.task

/-- Events that are no answer. -/
def isAnswer : TransportEvent → Bool
  | .tx _ => true
  | _ => false

theorem answers_concat (events : List TransportEvent) (event : TransportEvent) :
    answers (events ++ [event]) = answers events ++ answers [event] :=
  List.filterMap_append

theorem answers_silent {event : TransportEvent} (h : isAnswer event = false) :
    answers [event] = [] := by
  cases event with
  | tx => cases h
  | _ => rfl

theorem pushEvent_line {event : TransportEvent} (h : isAnswer event = false) :
    (s.pushEvent event).answerLine = s.answerLine := by
  unfold answerLine pushEvent
  dsimp only
  rw [answers_concat, answers_silent h, List.append_nil]

theorem pushEventFor_line (context : Option ConnectionContext)
    {event : ConnectionContext → TransportEvent} (h : ∀ context, isAnswer (event context) = false) :
    (s.pushEventFor context event).answerLine = s.answerLine := by
  cases context with
  | none => rfl
  | some context => exact pushEvent_line (h context)

theorem acceptClient_line (endpoint : String) (nowMs : Nat) :
    (s.acceptClient endpoint nowMs).answerLine = s.answerLine := by
  unfold acceptClient
  split
  · exact pushEventFor_line _ fun _ => rfl
  · have hclose : ∀ context, isAnswer (.close (stamped context nowMs) "新客户端已接管旧连接") = false :=
      fun _ => rfl
    exact (pushEvent_line rfl).trans (pushEventFor_line s.clientContext hclose)

theorem readHandler_line (generation : Nat) (result : Except String (List UInt8)) (nowMs : Nat) :
    (s.readHandler generation result nowMs).answerLine = s.answerLine := by
  unfold readHandler
  split
  · rfl
  · split
    · unfold readFailed
      split
      · rfl
      · exact pushEventFor_line (s := s.endRead generation) _ fun _ => rfl
    · rename_i bytes
      show ((s.endRead generation).readBytes bytes nowMs).answerLine = _
      unfold readBytes
      split
      · rfl
      · exact pushEventFor_line _ fun _ => rfl

theorem recordWrite_line (context : ConnectionContext) (bytes : List UInt8) (written : Nat)
    (status : String) (nowMs : Nat) :
    (s.recordWrite context bytes written status nowMs).answerLine = s.answerLine :=
  pushEvent_line rfl

theorem writeFailed_line (error : String) (nowMs : Nat) :
    (s.writeFailed error nowMs).answerLine = s.answerLine :=
  pushEventFor_line _ fun _ => rfl

theorem send_line (bytes : List UInt8) (result : WriteResult) :
    (s.send bytes result).answerLine = s.answerLine := by
  unfold send
  split
  · split
    · rfl
    · split
      · exact recordWrite_line ..
      · exact (writeFailed_line ..).trans (recordWrite_line ..)
  · rfl

/-- A task that runs goes from the posted ones to the answered ones. -/
theorem runTask_line (task : TransportTxTask) (result : WriteResult) :
    answers (s.runTask task result).emitted = answers s.emitted ++ [answerOf task] ∧
      (s.runTask task result).runtime.posted = s.runtime.posted := by
  have hfailed : answers (if result.ok task.payload then s
        else s.writeFailed result.error result.finishedAtMs).emitted = answers s.emitted ∧
      (if result.ok task.payload then s
        else s.writeFailed result.error result.finishedAtMs).runtime.posted = s.runtime.posted := by
    split
    · exact ⟨rfl, rfl⟩
    · unfold writeFailed pushEventFor
      split
      · exact ⟨(answers_concat _ _).trans (List.append_nil _), rfl⟩
      · exact ⟨rfl, rfl⟩
  unfold runTask
  generalize (if result.ok task.payload then s
    else s.writeFailed result.error result.finishedAtMs) = failed at hfailed ⊢
  obtain ⟨hanswers, hposted⟩ := hfailed
  unfold recordTaskWrite
  split
  · constructor
    · refine (answers_concat _ _).trans ?_
      refine congrArg (· ++ [answerOf task]) ?_
      exact (answers_concat _ _).trans ((List.append_nil _).trans hanswers)
    · exact hposted
  · constructor
    · refine (answers_concat _ _).trans ?_
      exact congrArg (· ++ [answerOf task]) hanswers
    · exact hposted

theorem runPosted_line (result : WriteResult) :
    (s.runPosted result).answerLine = s.answerLine := by
  unfold runPosted
  split
  · rfl
  · rename_i accepted posted hposted
    let rest : TcpServerTransport := { s with runtime := { s.runtime with posted := posted } }
    obtain ⟨hanswers, hrest⟩ := runTask_line (s := rest) accepted.task result
    show answers (rest.runTask accepted.task result).emitted ++
      (rest.runTask accepted.task result).runtime.posted.map _ = s.answerLine
    rw [hanswers, hrest]
    unfold answerLine
    rw [hposted, List.map_cons, List.append_assoc]
    rfl

/-- An accepted task is posted. -/
theorem enqueueSend_line (task : TransportTxTask) :
    (s.enqueueSend task).1.answerLine =
      s.answerLine ++ (if (s.enqueueSend task).2 then [task] else []).map answerOf := by
  unfold enqueueSend
  split
  · unfold answerLine
    dsimp only
    rw [List.map_append, ← List.append_assoc]
    rfl
  · exact (List.append_nil _).symm

/-- One step answers or posts, and loses nothing. -/
theorem step_line (step : ServerStep) (htraffic : step.isTraffic = true) :
    (s.step step).answerLine = s.answerLine ++ (acceptedTasks s [step]).map answerOf := by
  cases step with
  | otherConnection => exact (List.append_nil _).symm
  | takeEvents => exact (List.append_nil _).symm
  | accept result nowMs =>
    refine Eq.trans ?_ (List.append_nil _).symm
    unfold step
    dsimp only
    split
    · cases result with
      | error error => exact pushEventFor_line _ fun _ => rfl
      | ok endpoint => exact acceptClient_line endpoint nowMs
    · rfl
  | read generation result nowMs =>
    refine Eq.trans ?_ (List.append_nil _).symm
    unfold step
    dsimp only
    split
    · exact readHandler_line generation result nowMs
    · rfl
  | runPosted result =>
    refine Eq.trans ?_ (List.append_nil _).symm
    unfold step
    dsimp only
    split
    · exact runPosted_line result
    · rfl
  | send bytes result =>
    refine Eq.trans ?_ (List.append_nil _).symm
    unfold step
    dsimp only
    split
    · exact send_line bytes result
    · rfl
  | enqueueSend task =>
    unfold step acceptedTasks acceptedTasks
    dsimp only
    rw [List.append_nil]
    split
    · rename_i hclosing
      rw [hclosing, Bool.true_and]
      exact enqueueSend_line task
    · rename_i hclosing
      rw [Bool.not_eq_true] at hclosing
      rw [hclosing, Bool.false_and]
      exact (List.append_nil _).symm
  | «open» => cases htraffic
  | closeCapture => cases htraffic
  | closeJoin => cases htraffic
  | closeReport => cases htraffic

theorem acceptedTasks_cons (step : ServerStep) (steps : List ServerStep) :
    acceptedTasks s (step :: steps) = acceptedTasks s [step] ++ acceptedTasks (s.step step) steps := by
  cases step with
  | enqueueSend task =>
    exact congrArg (· ++ acceptedTasks (s.step (.enqueueSend task)) steps) (List.append_nil _).symm
  | _ => rfl

end Answers

/-- The tasks a run accepts are those that were answered, then those still posted. -/
theorem run_line (s : TcpServerTransport) (steps : List ServerStep)
    (htraffic : ∀ step ∈ steps, step.isTraffic = true) :
    (s.run steps).answerLine = s.answerLine ++ (acceptedTasks s steps).map answerOf := by
  induction steps generalizing s with
  | nil => exact (List.append_nil _).symm
  | cons step steps ih =>
    show ((s.step step).run steps).answerLine = _
    rw [ih (s.step step) fun step hstep => htraffic step (List.mem_cons_of_mem _ hstep),
      step_line step (htraffic step List.mem_cons_self), acceptedTasks_cons step steps,
      List.map_append, List.append_assoc]

/-! ### Where the bytes go -/

/-- A task runs while its client is still the one on the socket, and its write succeeds, or
fails when no client is left to lose by it; a client is taken on in no error state; `send`
succeeds. -/
def WritesWell (s : TcpServerTransport) : ServerStep → Prop
  | .runPosted result => ∀ accepted posted, s.runtime.posted = accepted :: posted →
      if result.ok accepted.task.payload then s.runtime.clientSocket = some accepted.client
      else
        s.clientContext = none ∧
          (result.written = 0 ∨ s.runtime.clientSocket = some accepted.client)
  | .accept (.ok _) _ => s.rejectsClient = true ∨ s.state = .open
  | .send bytes result => s.clientContext = none ∨ bytes = [] ∨ result.ok bytes = true
  | _ => True

/-- While the listener is open, the client that is known is on the socket and can be sent
to. -/
structure Serving (s : TcpServerTransport) : Prop where
  follows : ∃ w, Follows s w
  closing : s.closing = none
  running : s.runtime.running = true
  stopping : s.runtime.stopping = false
  socket : ∀ context, s.clientContext = some context →
    s.runtime.clientSocket = some context.connectionId
  «open» : s.clientContext.isSome = true → s.state = .open

/-- A step after which the client, its socket and the transport's state are as before. -/
structure KeepsClient (s s' : TcpServerTransport) : Prop where
  closing : s'.closing = s.closing
  running : s'.runtime.running = s.runtime.running
  stopping : s'.runtime.stopping = s.runtime.stopping
  clientSocket : s'.runtime.clientSocket = s.runtime.clientSocket
  clientContext : s'.clientContext = s.clientContext
  state : s'.state = s.state

section Serve

variable {s : TcpServerTransport}

theorem pushEventFor_keeps (context : Option ConnectionContext)
    (event : ConnectionContext → TransportEvent) : KeepsClient s (s.pushEventFor context event) := by
  obtain ⟨events, emitted, hframe⟩ := pushEventFor_frame s context event
  rw [hframe]
  exact ⟨rfl, rfl, rfl, rfl, rfl, rfl⟩

theorem recordTaskWrite_keeps (task : TransportTxTask) (result : WriteResult) :
    KeepsClient s (s.recordTaskWrite task result) := by
  unfold recordTaskWrite
  split
  · exact ⟨rfl, rfl, rfl, rfl, rfl, rfl⟩
  · exact ⟨rfl, rfl, rfl, rfl, rfl, rfl⟩

theorem Serving.of_keeps {s' : TcpServerTransport} (h : Serving s) (hkeeps : KeepsClient s s')
    (hfollows : ∃ w, Follows s' w) : Serving s' := by
  obtain ⟨hclosing, hrunning, hstopping, hsocket, hclient, hstate⟩ := hkeeps
  refine ⟨hfollows, hclosing.trans h.closing, hrunning.trans h.running,
    hstopping.trans h.stopping, ?_, ?_⟩
  · rw [hclient, hsocket]
    exact h.socket
  · rw [hclient, hstate]
    exact h.open

/-- Without a client nothing has to be said about the socket or the state. -/
theorem Serving.of_no_client (hfollows : ∃ w, Follows s w) (hclosing : s.closing = none)
    (hrunning : s.runtime.running = true) (hstopping : s.runtime.stopping = false)
    (hclient : s.clientContext = none) : Serving s := by
  refine ⟨hfollows, hclosing, hrunning, hstopping, ?_, ?_⟩
  · intro context hsome
    rw [hclient] at hsome
    cases hsome
  · intro hsome
    rw [hclient] at hsome
    cases hsome

/-- A server that is not stopping takes no client late, so the watch follows every step. -/
theorem Serving.step_follows (h : Serving s) (step : ServerStep) :
    ∃ w, Follows (s.step step) w := by
  obtain ⟨w, hw⟩ := h.follows
  refine TcpServerTransport.step_follows hw step ?_
  cases step with
  | accept result nowMs =>
    cases result with
    | error => rfl
    | ok endpoint =>
      unfold takesLateClient
      dsimp only
      rw [h.stopping, Bool.and_false, Bool.false_and]
  | _ => rfl

theorem accept_serving (h : Serving s) (endpoint : String) (nowMs : Nat)
    (hwell : s.rejectsClient = true ∨ s.state = .open)
    (hfollows : ∃ w, Follows (s.acceptClient endpoint nowMs) w) :
    Serving (s.acceptClient endpoint nowMs) := by
  unfold acceptClient at hfollows ⊢
  split at hfollows
  · rename_i hrejects
    rw [if_pos hrejects]
    exact h.of_keeps (pushEventFor_keeps _ _) hfollows
  · rename_i haccepts
    rw [if_neg haccepts]
    have hopen := hwell.resolve_left haccepts
    unfold takeClient at hfollows ⊢
    obtain ⟨events, emitted, hframe⟩ := pushEventFor_frame s s.clientContext fun context =>
      .close (stamped context nowMs) "新客户端已接管旧连接"
    rw [hframe] at hfollows ⊢
    refine ⟨hfollows, h.closing, h.running, h.stopping, ?_, fun _ => hopen⟩
    intro context hcontext
    obtain rfl := Option.some.inj hcontext
    rfl

theorem readHandler_serving (h : Serving s) (generation : Nat)
    (result : Except String (List UInt8)) (nowMs : Nat)
    (hfollows : ∃ w, Follows (s.readHandler generation result nowMs) w) :
    Serving (s.readHandler generation result nowMs) := by
  unfold readHandler at hfollows ⊢
  split at hfollows
  · rename_i hold
    rw [if_pos hold]
    exact h.of_keeps ⟨rfl, rfl, rfl, rfl, rfl, rfl⟩ hfollows
  · rename_i hcurrent
    rw [if_neg hcurrent]
    cases result with
    | error error =>
      dsimp only at hfollows ⊢
      unfold readFailed at hfollows ⊢
      split at hfollows
      · rename_i hguard
        rw [if_pos hguard]
        exact h.of_keeps ⟨rfl, rfl, rfl, rfl, rfl, rfl⟩ hfollows
      · rename_i hguard
        rw [if_neg hguard]
        obtain ⟨events, emitted, hframe⟩ := pushEventFor_frame (s.endRead generation)
          (s.endRead generation).clientContext fun context => .close (stamped context nowMs) error
        rw [hframe] at hfollows ⊢
        exact .of_no_client hfollows h.closing h.running h.stopping rfl
    | ok bytes =>
      dsimp only at hfollows ⊢
      refine h.of_keeps ?_ hfollows
      unfold readBytes
      split
      · exact ⟨rfl, rfl, rfl, rfl, rfl, rfl⟩
      · let counted : TcpServerTransport :=
          { s.endRead generation with rxCount := (s.endRead generation).rxCount + bytes.length }
        have hkeeps := pushEventFor_keeps (s := counted) counted.clientContext fun context =>
          .bytes { context := stamped context nowMs, bytes := bytes }
        exact ⟨hkeeps.closing, hkeeps.running, hkeeps.stopping, hkeeps.clientSocket,
          hkeeps.clientContext, hkeeps.state⟩

/-- A task that runs well leaves a client that can be sent to, or none. -/
theorem runTask_serving (h : Serving s) (task : TransportTxTask) (result : WriteResult)
    (hwell : result.ok task.payload = true ∨ s.clientContext = none)
    (hfollows : ∃ w, Follows (s.runTask task result) w) : Serving (s.runTask task result) := by
  unfold runTask at hfollows ⊢
  split at hfollows
  · rename_i hok
    rw [if_pos hok]
    have hkeeps := recordTaskWrite_keeps (s := s) task result
    exact h.of_keeps ⟨hkeeps.closing, hkeeps.running, hkeeps.stopping, hkeeps.clientSocket,
      hkeeps.clientContext, hkeeps.state⟩ hfollows
  · rename_i hfailed
    rw [if_neg hfailed]
    have hnone := hwell.resolve_left hfailed
    have hkeeps := recordTaskWrite_keeps (s := s.writeFailed result.error result.finishedAtMs)
      task result
    have hfailedKeeps := pushEventFor_keeps (s := { s with state := .error }) s.clientContext
      fun context => .error (stamped context result.finishedAtMs) result.error
    exact .of_no_client hfollows (hkeeps.closing.trans (hfailedKeeps.closing.trans h.closing))
      (hkeeps.running.trans (hfailedKeeps.running.trans h.running))
      (hkeeps.stopping.trans (hfailedKeeps.stopping.trans h.stopping))
      (hkeeps.clientContext.trans (hfailedKeeps.clientContext.trans hnone))

theorem runPosted_serving (h : Serving s) (result : WriteResult)
    (hwell : WritesWell s (.runPosted result)) (hfollows : ∃ w, Follows (s.runPosted result) w) :
    Serving (s.runPosted result) := by
  unfold runPosted at hfollows ⊢
  cases hposted : s.runtime.posted with
  | nil => exact h
  | cons accepted posted =>
    rw [hposted] at hfollows
    obtain ⟨w, hw⟩ := h.follows
    have hrest : Serving { s with runtime := { s.runtime with posted := posted } } :=
      ⟨⟨w, hw.of_same (.of_eq rfl rfl rfl rfl rfl rfl rfl)⟩, h.closing, h.running, h.stopping,
        h.socket, h.open⟩
    refine runTask_serving hrest accepted.task result ?_ hfollows
    have hcase := hwell accepted posted hposted
    split at hcase
    · exact .inl ‹_›
    · exact .inr hcase.1

theorem send_serving (h : Serving s) (bytes : List UInt8) (result : WriteResult)
    (hwell : WritesWell s (.send bytes result)) (hfollows : ∃ w, Follows (s.send bytes result) w) :
    Serving (s.send bytes result) := by
  have hkeeps : KeepsClient s (s.send bytes result) := by
    unfold send
    split
    · rename_i context hclient
      split
      · exact ⟨rfl, rfl, rfl, rfl, rfl, rfl⟩
      · rename_i hsends
        obtain hnone | hempty | hok := hwell
        · rw [hclient] at hnone
          cases hnone
        · exact absurd (Or.inr hempty) hsends
        · rw [if_pos hok]
          exact ⟨rfl, rfl, rfl, rfl, rfl, rfl⟩
    · exact ⟨rfl, rfl, rfl, rfl, rfl, rfl⟩
  exact h.of_keeps hkeeps hfollows

theorem step_serving (h : Serving s) (step : ServerStep) (htraffic : step.isTraffic = true)
    (hwell : WritesWell s step) : Serving (s.step step) := by
  have hfollows := h.step_follows step
  cases step with
  | otherConnection => exact h.of_keeps ⟨rfl, rfl, rfl, rfl, rfl, rfl⟩ hfollows
  | takeEvents => exact h.of_keeps ⟨rfl, rfl, rfl, rfl, rfl, rfl⟩ hfollows
  | accept result nowMs =>
    unfold step at hfollows ⊢
    dsimp only at hfollows ⊢
    split at hfollows
    · rename_i hguard
      rw [if_pos hguard]
      cases result with
      | error error =>
        have hkeeps := pushEventFor_keeps
          (s := { s with runtime := { s.runtime with accepting := false } })
          (if s.runtime.stopping then none else s.listenContext) fun context =>
            .error (stamped context nowMs) error
        exact h.of_keeps ⟨hkeeps.closing, hkeeps.running, hkeeps.stopping, hkeeps.clientSocket,
          hkeeps.clientContext, hkeeps.state⟩ hfollows
      | ok endpoint => exact accept_serving h endpoint nowMs hwell hfollows
    · rename_i hguard
      rw [if_neg hguard]
      exact h
  | read generation result nowMs =>
    unfold step at hfollows ⊢
    dsimp only at hfollows ⊢
    split at hfollows
    · rename_i hguard
      rw [if_pos hguard]
      exact readHandler_serving h generation result nowMs hfollows
    · rename_i hguard
      rw [if_neg hguard]
      exact h
  | runPosted result =>
    have hrun : s.step (.runPosted result) = s.runPosted result := if_pos h.running
    rw [hrun] at hfollows ⊢
    exact runPosted_serving h result hwell hfollows
  | enqueueSend task =>
    have henqueue : s.step (.enqueueSend task) = (s.enqueueSend task).1 :=
      if_pos (Option.isNone_iff_eq_none.mpr h.closing)
    rw [henqueue] at hfollows ⊢
    refine h.of_keeps ?_ hfollows
    unfold enqueueSend
    split
    · exact ⟨rfl, rfl, rfl, rfl, rfl, rfl⟩
    · exact ⟨rfl, rfl, rfl, rfl, rfl, rfl⟩
  | send bytes result =>
    have hsend : s.step (.send bytes result) = s.send bytes result :=
      if_pos (Option.isNone_iff_eq_none.mpr h.closing)
    rw [hsend] at hfollows ⊢
    exact send_serving h bytes result hwell hfollows
  | «open» => cases htraffic
  | closeCapture => cases htraffic
  | closeJoin => cases htraffic
  | closeReport => cases htraffic

theorem recordWrite_write (context : ConnectionContext) (bytes : List UInt8) (written : Nat)
    (status : String) (nowMs : Nat) :
    ∃ kept recorded, (s.recordWrite context bytes written status nowMs).emitted =
      s.emitted ++ [.write (stamped context nowMs) kept recorded] :=
  ⟨_, _, rfl⟩

/-- A write is recorded for the client that is known when the task runs. -/
theorem runTask_writes (task : TransportTxTask) (result : WriteResult) :
    ∃ events, (s.runTask task result).emitted = s.emitted ++ events ∧
      ∀ context bytes status, TransportEvent.write context bytes status ∈ events →
        ∃ client, s.clientContext = some client ∧ context.connectionId = client.connectionId := by
  have hfailed : ∃ events, (if result.ok task.payload then s
        else s.writeFailed result.error result.finishedAtMs).emitted = s.emitted ++ events ∧
      (∀ context bytes status, TransportEvent.write context bytes status ∉ events) ∧
      (if result.ok task.payload then s
        else s.writeFailed result.error result.finishedAtMs).clientContext = s.clientContext := by
    split
    · exact ⟨[], (List.append_nil _).symm, fun _ _ _ hmem => (by cases hmem), rfl⟩
    · unfold writeFailed pushEventFor
      split
      · refine ⟨[_], rfl, fun _ _ _ hmem => ?_, rfl⟩
        cases List.mem_singleton.mp hmem
      · exact ⟨[], (List.append_nil _).symm, fun _ _ _ hmem => (by cases hmem), rfl⟩
  unfold runTask
  generalize (if result.ok task.payload then s
    else s.writeFailed result.error result.finishedAtMs) = failed at hfailed ⊢
  obtain ⟨events, hevents, hnone, hclient⟩ := hfailed
  unfold recordTaskWrite
  rw [hclient]
  cases hcontext : s.clientContext with
  | none =>
    refine ⟨events ++ [.tx (txEvent task result)], ?_, ?_⟩
    · show failed.emitted ++ [_] = _
      rw [hevents, List.append_assoc]
    · intro context bytes status hmem
      obtain hmem | hmem := List.mem_append.mp hmem
      · exact absurd hmem (hnone context bytes status)
      · cases List.mem_singleton.mp hmem
  | some client =>
    obtain ⟨kept, status, hwrite⟩ := recordWrite_write (s := failed) client task.payload
      result.written (writeStatus (writtenState task result)) result.finishedAtMs
    refine ⟨events ++ [.write (stamped client result.finishedAtMs) kept status,
      .tx (txEvent task result)], ?_, ?_⟩
    · show (failed.recordWrite _ _ _ _ _).emitted ++ [_] = _
      rw [hwrite, hevents, List.append_assoc, List.append_assoc]
      rfl
    · intro context bytes status hmem
      obtain hmem | hmem := List.mem_append.mp hmem
      · exact absurd hmem (hnone context bytes status)
      · obtain heq | hmem := List.mem_cons.mp hmem
        · obtain ⟨rfl, -, -⟩ := TransportEvent.write.inj heq
          exact ⟨client, rfl, rfl⟩
        · cases List.mem_singleton.mp hmem

/-- The bytes of a task that runs well are those of its own client. -/
theorem step_routes (h : Serving s) (step : ServerStep) (hwell : WritesWell s step) :
    RoutesWrite s step := by
  cases step with
  | runPosted result =>
    intro accepted posted hposted
    have hcase := hwell accepted posted hposted
    constructor
    · intro hwritten
      split at hcase
      · exact hcase
      · obtain ⟨-, hzero | hsocket⟩ := hcase
        · exact absurd hzero (Nat.pos_iff_ne_zero.mp hwritten)
        · exact hsocket
    · intro events hemitted context bytes status hmem
      have hrun : s.step (.runPosted result) =
          { s with runtime := { s.runtime with posted := posted } }.runTask accepted.task result := by
        refine (if_pos h.running).trans ?_
        unfold runPosted
        rw [hposted]
      obtain ⟨events', hevents', hwrites⟩ := runTask_writes
        (s := { s with runtime := { s.runtime with posted := posted } }) accepted.task result
      rw [hrun, hevents'] at hemitted
      obtain rfl := List.append_cancel_left hemitted
      obtain ⟨client, hclient, hid⟩ := hwrites context bytes status hmem
      have hsocket := h.socket client hclient
      split at hcase
      · rw [hid]
        exact Option.some.inj (hsocket.symm.trans hcase)
      · rw [show s.clientContext = none from hcase.1] at hclient
        cases hclient
  | _ => trivial

/-- A client that is connected can be sent to. -/
theorem Serving.accepts (h : Serving s) {id : Nat} (hconnected : Connected s.emitted id)
    (task : TransportTxTask) (hpayload : task.payload ≠ []) : (s.enqueueSend task).2 = true := by
  obtain ⟨w, hw⟩ := h.follows
  have hclient := client_of_connected hw.watched hconnected
  rw [hw.client, (hw.running_open h.running).2] at hclient
  obtain ⟨context, hcontext, -⟩ := Option.map_eq_some_iff.mp hclient
  have hopen := h.open (Option.isSome_iff_exists.mpr ⟨context, hcontext⟩)
  unfold enqueueSend acceptsTask
  rw [hcontext]
  dsimp only
  rw [if_pos ⟨hopen, hpayload, h.stopping⟩]

end Serve

/-! ### Runs -/

def RunWritesWell : TcpServerTransport → List ServerStep → Prop
  | _, [] => True
  | s, step :: steps => WritesWell s step ∧ RunWritesWell (s.step step) steps

theorem run_serving {s : TcpServerTransport} (h : Serving s) (steps : List ServerStep)
    (htraffic : ∀ step ∈ steps, step.isTraffic = true) (hwell : RunWritesWell s steps) :
    Serving (s.run steps) ∧ RunRoutesWrites s steps := by
  induction steps generalizing s with
  | nil => exact ⟨h, trivial⟩
  | cons step steps ih =>
    have hstep := step_serving h step (htraffic step List.mem_cons_self) hwell.1
    obtain ⟨hserving, hroutes⟩ := ih hstep
      (fun step hmem => htraffic step (List.mem_cons_of_mem _ hmem)) hwell.2
    exact ⟨hserving, step_routes h step hwell.1, hroutes⟩

theorem listening_serving (s : TcpServerTransport) (rejectNewConnection : Bool) (nowMs : Nat)
    (localEndpoint : String) : Serving (s.listening rejectNewConnection nowMs localEndpoint) := by
  have hidle : Follows { s with
      runtime := {}
      listenContext := none
      clientContext := none
      closing := none
      emitted := [] } {} :=
    .of_closing_none rfl rfl rfl rfl (fun _ hmem => by cases hmem) (fun _ => ⟨rfl, rfl⟩)
      (fun hfalse => Bool.noConfusion hfalse) rfl
  refine ⟨openListener_follows hidle rfl rfl rejectNewConnection nowMs (.listening localEndpoint),
    rfl, rfl, rfl, ?_, fun _ => rfl⟩
  intro context hnone
  cases hnone

/-- **Every run of a listener whose writes go well serves its clients**: a client that is
connected can be sent to, each accepted task is answered once and in order, and its bytes
are written and recorded for no other client than its own. -/
theorem writes_served (s : TcpServerTransport) (rejectNewConnection : Bool) (nowMs : Nat)
    (localEndpoint : String) (steps : List ServerStep)
    (htraffic : ∀ step ∈ steps, step.isTraffic = true)
    (hwell : RunWritesWell (s.listening rejectNewConnection nowMs localEndpoint) steps) :
    WritesServed (s.listening rejectNewConnection nowMs localEndpoint) steps := by
  obtain ⟨hserving, hroutes⟩ := run_serving
    (listening_serving s rejectNewConnection nowMs localEndpoint) steps htraffic hwell
  refine ⟨fun id hconnected task hpayload => hserving.accepts hconnected task hpayload, ?_, hroutes⟩
  exact run_line (s.listening rejectNewConnection nowMs localEndpoint) steps htraffic

def someTask : TransportTxTask where
  requestId := 1
  kind := .send
  payload := [1, 2]
  timeoutMs := 0
  queuedAtMs := 0

/-- Two clients one after the other, each of which is sent to; the second write comes too
late for its client. -/
def servedRun : List ServerStep :=
  [.accept (.ok "10.0.0.1:4000") 1, .enqueueSend someTask, .runPosted ⟨2, "", 2, 2⟩,
    .accept (.ok "10.0.0.2:4000") 3, .enqueueSend { someTask with requestId := 2 },
    .read 2 (.error "reset") 4, .runPosted ⟨0, "broken pipe", 5, 5⟩]

theorem servedRun_served : WritesServed (listening {} false 0 "0.0.0.0:5000") servedRun := by
  refine writes_served {} false 0 "0.0.0.0:5000" servedRun ?_ ?_
  · decide
  · refine ⟨.inr rfl, trivial, ?_, .inr rfl, trivial, trivial, ?_, trivial⟩
    · intro accepted posted hposted
      obtain ⟨rfl, rfl⟩ := List.cons.inj hposted
      rfl
    · intro accepted posted hposted
      obtain ⟨rfl, rfl⟩ := List.cons.inj hposted
      exact ⟨rfl, .inl rfl⟩

/-- A client leaves before its task runs, and the write fails: the next client cannot be
sent to. -/
def refusingRun : List ServerStep :=
  [.accept (.ok "10.0.0.1:4000") 1, .enqueueSend someTask, .read 1 (.error "reset") 2,
    .runPosted ⟨0, "broken pipe", 3, 3⟩, .accept (.ok "10.0.0.2:4000") 4]

/-- A client is taken over before its task runs: the bytes go to the other one. -/
def strayRun : List ServerStep :=
  [.accept (.ok "10.0.0.1:4000") 1, .enqueueSend someTask, .accept (.ok "10.0.0.2:4000") 2,
    .runPosted ⟨2, "", 3, 3⟩]

def closesClient (id : Nat) : TransportEvent → Bool
  | .close context _ => context.connectionId == id
  | _ => false

theorem refusingRun_connected :
    Connected (run (listening {} false 0 "0.0.0.0:5000") refusingRun).emitted 3 := by
  constructor
  · refine ⟨⟨.tcpClient, "10.0.0.2:4000", 3, 4, true⟩, ?_, rfl, rfl⟩
    decide
  · have hnone : ∀ event ∈ (run (listening {} false 0 "0.0.0.0:5000") refusingRun).emitted,
        closesClient 3 event = false := by decide
    intro context reason hmem heq
    have hcloses : (context.connectionId == 3) = false := hnone _ hmem
    rw [heq] at hcloses
    cases hcloses

/-- A server that stays open need not serve its clients, in either respect. -/
theorem served_not_always :
    (¬ ∀ steps : List ServerStep, (∀ step ∈ steps, step.isTraffic = true) →
        ∀ id, Connected (run (listening {} false 0 "0.0.0.0:5000") steps).emitted id →
          ∀ task : TransportTxTask, task.payload ≠ [] →
            ((run (listening {} false 0 "0.0.0.0:5000") steps).enqueueSend task).2 = true) ∧
      ¬ ∀ steps : List ServerStep, (∀ step ∈ steps, step.isTraffic = true) →
        RunRoutesWrites (listening {} false 0 "0.0.0.0:5000") steps := by
  constructor
  · intro hall
    have haccepted := hall refusingRun (by decide) 3 refusingRun_connected someTask (by decide)
    have hrefused : ((run (listening {} false 0 "0.0.0.0:5000") refusingRun).enqueueSend
      someTask).2 = false := by decide
    rw [hrefused] at haccepted
    cases haccepted
  · intro hall
    obtain ⟨-, -, -, hstray, -⟩ := hall strayRun (by decide)
    have hsocket := (hstray ⟨someTask, 2⟩ [] rfl).1 (by decide)
    exact absurd hsocket (by decide)

end TcpServerTransport

end ProtoScope.Transport
