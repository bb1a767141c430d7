/-
Whether the events of the TCP server tell a consistent story.

`watch` reads the events one by one and knows what is open: a connection opens once, no two
clients at a time and none without its listener, bytes come from the open client, and what
is open is closed once, the listener last.

The contexts of the transport are what the watch has open, also while `close` is under way,
because what it has captured is still there when it reports it.  A client taken on in
between breaks that; nothing else does.
-/
import ProtoScope.Transport.TcpServerTransport

namespace ProtoScope.Transport

open ConnectionContext TcpServerTransport

/-- What the events so far have left open. -/
structure Watch where
  listen : Option Nat := none
  client : Option Nat := none
  /-- every connection that has been opened -/
  seen : List Nat := []
deriving DecidableEq, Repr

namespace Watch

/-- A connection opens once; a client needs a listener without a client. -/
def opened (w : Watch) (context : ConnectionContext) : Option Watch :=
  if w.seen.contains context.connectionId || w.client.isSome then none
  else if context.readyForIo then
    if w.listen.isSome then
      some { w with
        client := some context.connectionId
        seen := context.connectionId :: w.seen }
    else none
  else if w.listen.isSome then none
  else
    some { w with listen := some context.connectionId, seen := context.connectionId :: w.seen }

/-- The client closes, or the listener once it has none. -/
def closed (w : Watch) (context : ConnectionContext) : Option Watch :=
  if w.client = some context.connectionId then some { w with client := none }
  else if w.client.isNone ∧ w.listen = some context.connectionId then some { w with listen := none }
  else none

def watch (w : Watch) : TransportEvent → Option Watch
  | .open context => w.opened context
  | .close context _ => w.closed context
  | .bytes event => if w.client = some event.context.connectionId then some w else none
  | _ => some w

/-- What a sequence of events leaves open, if it is consistent. -/
def watched (events : List TransportEvent) : Option Watch :=
  events.foldlM watch {}

theorem watched_concat (events : List TransportEvent) (event : TransportEvent) :
    watched (events ++ [event]) = (watched events).bind fun w => w.watch event := by
  unfold watched
  rw [List.foldlM_append]
  cases List.foldlM watch {} events with
  | none => rfl
  | some w =>
    show (w.watch event >>= fun w => pure w) = w.watch event
    cases w.watch event <;> rfl

end Watch

namespace TcpServerTransport

open Watch (watched watched_concat)

/-- The listener and the client that are still to be closed. -/
def openListen (s : TcpServerTransport) : Option ConnectionContext :=
  match s.closing with
  | some (.joined _ listen) => listen
  | _ => s.listenContext

def openClient (s : TcpServerTransport) : Option ConnectionContext :=
  match s.closing with
  | some (.joined client _) => client
  | _ => s.clientContext

/-- The watch has open what the transport will close. -/
structure Follows (s : TcpServerTransport) (w : Watch) : Prop where
  watched : watched s.emitted = some w
  listen : w.listen = s.openListen.map connectionId
  client : w.client = s.openClient.map connectionId
  seen : ∀ id ∈ w.seen, id < s.nextConnectionId
  /-- only a thread that runs leaves contexts -/
  idle : s.runtime.running = false → s.listenContext = none ∧ s.clientContext = none
  listening : s.runtime.running = true → s.listenContext.isSome = true
  stopping : s.runtime.stopping = true ↔ ∃ client listen, s.closing = some (.captured client listen)
  captured : ∀ client listen, s.closing = some (.captured client listen) →
    client = s.clientContext ∧ listen = s.listenContext
  joined : ∀ client listen, s.closing = some (.joined client listen) → s.runtime.running = false

theorem follows_initial : Follows {} {} where
  watched := rfl
  listen := rfl
  client := rfl
  seen := fun _ h => by cases h
  idle := fun _ => ⟨rfl, rfl⟩
  listening := fun h => by cases h
  stopping := by
    constructor
    · intro h
      cases h
    · rintro ⟨_, _, h⟩
      cases h
  captured := fun _ _ h => by cases h
  joined := fun _ _ h => by cases h

/-- Events that are about no opening, closing or bytes leave the watch as it is. -/
def quiet : TransportEvent → Bool
  | .error .. => true
  | .tx .. => true
  | .write .. => true
  | _ => false

theorem watch_quiet {event : TransportEvent} (h : quiet event = true) (w : Watch) :
    w.watch event = some w := by
  cases event with
  | error => rfl
  | tx => rfl
  | write => rfl
  | «open» => cases h
  | close => cases h
  | bytes => cases h

/-- Two states that differ in nothing the watch is about. -/
structure SameConnections (s s' : TcpServerTransport) : Prop where
  listenContext : s'.listenContext = s.listenContext
  clientContext : s'.clientContext = s.clientContext
  nextConnectionId : s.nextConnectionId ≤ s'.nextConnectionId
  running : s'.runtime.running = s.runtime.running
  stopping : s'.runtime.stopping = s.runtime.stopping
  closing : s'.closing = s.closing
  emitted : ∃ events, s'.emitted = s.emitted ++ events ∧ ∀ event ∈ events, quiet event = true

theorem watched_quiet {events : List TransportEvent} (h : ∀ event ∈ events, quiet event = true)
    {before : List TransportEvent} {w : Watch} (hbefore : watched before = some w) :
    watched (before ++ events) = some w := by
  induction events generalizing before with
  | nil => rw [List.append_nil]; exact hbefore
  | cons event events ih =>
    rw [← List.singleton_append, ← List.append_assoc]
    refine ih (fun event hevent => h event (List.mem_cons_of_mem _ hevent)) ?_
    rw [watched_concat, hbefore]
    exact watch_quiet (h event List.mem_cons_self) w

theorem Follows.of_same {s s' : TcpServerTransport} {w : Watch} (h : Follows s w)
    (hsame : SameConnections s s') : Follows s' w := by
  obtain ⟨hlisten, hclient, hnext, hrunning, hstopping, hclosing, events, hemitted, hquiet⟩ := hsame
  have hopenListen : s'.openListen = s.openListen := by
    unfold openListen
    rw [hclosing, hlisten]
  have hopenClient : s'.openClient = s.openClient := by
    unfold openClient
    rw [hclosing, hclient]
  constructor
  · rw [hemitted]
    exact watched_quiet hquiet h.watched
  · rw [hopenListen]
    exact h.listen
  · rw [hopenClient]
    exact h.client
  · exact fun id hid => Nat.lt_of_lt_of_le (h.seen id hid) hnext
  · rw [hrunning, hlisten, hclient]
    exact h.idle
  · rw [hrunning, hlisten]
    exact h.listening
  · rw [hstopping, hclosing]
    exact h.stopping
  · rw [hclosing, hclient, hlisten]
    exact h.captured
  · rw [hclosing, hrunning]
    exact h.joined

/-! ### What does not concern the connections -/

section Quiet

variable {s : TcpServerTransport}

theorem SameConnections.trans {s t u : TcpServerTransport} (h : SameConnections s t)
    (h' : SameConnections t u) : SameConnections s u := by
  obtain ⟨events, hevents, hquiet⟩ := h.emitted
  obtain ⟨events', hevents', hquiet'⟩ := h'.emitted
  refine ⟨h'.listenContext.trans h.listenContext, h'.clientContext.trans h.clientContext,
    Nat.le_trans h.nextConnectionId h'.nextConnectionId, h'.running.trans h.running,
    h'.stopping.trans h.stopping, h'.closing.trans h.closing, events ++ events', ?_, ?_⟩
  · rw [hevents', hevents, List.append_assoc]
  · intro event hevent
    obtain hevent | hevent := List.mem_append.mp hevent
    · exact hquiet event hevent
    · exact hquiet' event hevent

/-- A change of fields that have nothing to do with connections. -/
theorem SameConnections.of_eq {s s' : TcpServerTransport} (hlisten : s'.listenContext = s.listenContext)
    (hclient : s'.clientContext = s.clientContext)
    (hnext : s'.nextConnectionId = s.nextConnectionId)
    (hrunning : s'.runtime.running = s.runtime.running)
    (hstopping : s'.runtime.stopping = s.runtime.stopping) (hclosing : s'.closing = s.closing)
    (hemitted : s'.emitted = s.emitted) : SameConnections s s' :=
  ⟨hlisten, hclient, Nat.le_of_eq hnext.symm, hrunning, hstopping, hclosing, [],
    hemitted.trans (List.append_nil _).symm, fun _ h => by cases h⟩

theorem SameConnections.refl (s : TcpServerTransport) : SameConnections s s :=
  .of_eq rfl rfl rfl rfl rfl rfl rfl

theorem pushEvent_same (s : TcpServerTransport) {event : TransportEvent}
    (h : quiet event = true) : SameConnections s (s.pushEvent event) :=
  ⟨rfl, rfl, Nat.le_refl _, rfl, rfl, rfl, [event], rfl, fun _ hevent => by
    rw [List.mem_singleton.mp hevent]
    exact h⟩

theorem pushEventFor_same (s : TcpServerTransport) (context : Option ConnectionContext)
    {event : ConnectionContext → TransportEvent} (h : ∀ context, quiet (event context) = true) :
    SameConnections s (s.pushEventFor context event) := by
  cases context with
  | none => exact .refl s
  | some context => exact pushEvent_same s (h context)

theorem acceptFailed_same (error : String) (nowMs : Nat) :
    SameConnections s (s.acceptFailed error nowMs) :=
  SameConnections.trans (t := { s with runtime := { s.runtime with accepting := false } })
    (.of_eq rfl rfl rfl rfl rfl rfl rfl) (pushEventFor_same _ _ fun _ => rfl)

theorem recordWrite_same (context : ConnectionContext) (bytes : List UInt8) (written : Nat)
    (status : String) (nowMs : Nat) :
    SameConnections s (s.recordWrite context bytes written status nowMs) :=
  SameConnections.trans (t := { s with txCount := s.txCount + min written bytes.length })
    (.of_eq rfl rfl rfl rfl rfl rfl rfl) (pushEvent_same _ rfl)

theorem writeFailed_same (error : String) (nowMs : Nat) :
    SameConnections s (s.writeFailed error nowMs) :=
  SameConnections.trans (t := { s with state := .error }) (.of_eq rfl rfl rfl rfl rfl rfl rfl)
    (pushEventFor_same _ _ fun _ => rfl)

theorem recordTaskWrite_same (task : TransportTxTask) (result : WriteResult) :
    SameConnections s (s.recordTaskWrite task result) := by
  unfold recordTaskWrite
  split
  · exact recordWrite_same _ _ _ _ _
  · exact .refl s

theorem runTask_same (task : TransportTxTask) (result : WriteResult) :
    SameConnections s (s.runTask task result) := by
  have hfailed : SameConnections s
      (if result.ok task.payload then s else s.writeFailed result.error result.finishedAtMs) := by
    split
    · exact .refl s
    · exact writeFailed_same _ _
  exact (hfailed.trans (recordTaskWrite_same task result)).trans (pushEvent_same _ rfl)

theorem runPosted_same (result : WriteResult) : SameConnections s (s.runPosted result) := by
  unfold runPosted
  split
  · exact .refl s
  · rename_i accepted posted _
    exact SameConnections.trans (t := { s with runtime := { s.runtime with posted := posted } })
      (.of_eq rfl rfl rfl rfl rfl rfl rfl) (runTask_same _ _)

theorem enqueueSend_same (task : TransportTxTask) : SameConnections s (s.enqueueSend task).1 := by
  unfold enqueueSend
  split
  · exact .of_eq rfl rfl rfl rfl rfl rfl rfl
  · exact .refl s

theorem send_same (bytes : List UInt8) (result : WriteResult) :
    SameConnections s (s.send bytes result) := by
  unfold send
  split
  · split
    · exact .refl s
    · split
      · exact recordWrite_same _ _ _ _ _
      · exact (recordWrite_same _ _ _ _ _).trans (writeFailed_same _ _)
  · exact .refl s

end Quiet

/-! ### One step -/

section Step

variable {s : TcpServerTransport} {w : Watch}

/-- While the thread runs nothing has been joined, so the contexts are what is open. -/
theorem Follows.running_open (h : Follows s w) (hrunning : s.runtime.running = true) :
    s.openListen = s.listenContext ∧ s.openClient = s.clientContext := by
  unfold openListen openClient
  cases hclosing : s.closing with
  | none => exact ⟨rfl, rfl⟩
  | some phase =>
    cases phase with
    | captured client listen => exact ⟨rfl, rfl⟩
    | joined client listen =>
      have hnot := h.joined client listen hclosing
      rw [hrunning] at hnot
      cases hnot

theorem pushEventFor_some (s : TcpServerTransport) {found : Option ConnectionContext}
    {context : ConnectionContext} (h : found = some context)
    (event : ConnectionContext → TransportEvent) :
    s.pushEventFor found event = s.pushEvent (event context) := by
  rw [h]
  rfl

theorem Follows.watched_emit (h : Follows s w) {event : TransportEvent} {w' : Watch}
    (hwatch : w.watch event = some w') : Watch.watched (s.emitted ++ [event]) = some w' := by
  rw [watched_concat, h.watched]
  exact hwatch

/-- The client the thread knows is the one the watch has open. -/
theorem Follows.client_open (h : Follows s w) (hrunning : s.runtime.running = true)
    {context : ConnectionContext} (hclient : s.clientContext = some context) :
    w.client = some context.connectionId := by
  rw [h.client, (h.running_open hrunning).2, hclient]
  rfl

/-- Bytes come from the client that is open. -/
theorem readBytes_follows (h : Follows s w) (hrunning : s.runtime.running = true)
    (bytes : List UInt8) (nowMs : Nat) : Follows (s.readBytes bytes nowMs) w := by
  unfold readBytes
  split
  · exact h
  · rename_i hguard
    rw [Bool.or_eq_true, not_or, Option.isNone_iff_eq_none] at hguard
    obtain ⟨context, hclient⟩ := Option.ne_none_iff_exists'.mp hguard.2
    rw [pushEventFor_some _ hclient]
    refine ⟨?_, h.listen, h.client, h.seen, h.idle, h.listening, h.stopping, h.captured, h.joined⟩
    exact h.watched_emit (if_pos (h.client_open hrunning hclient))

/-- A thread that runs and is not told to stop is not being closed. -/
theorem Follows.closing_none (h : Follows s w) (hrunning : s.runtime.running = true)
    (hstopping : s.runtime.stopping = false) : s.closing = none := by
  cases hclosing : s.closing with
  | none => rfl
  | some phase =>
    cases phase with
    | captured client listen =>
      rw [h.stopping.mpr ⟨client, listen, hclosing⟩] at hstopping
      cases hstopping
    | joined client listen =>
      rw [h.joined client listen hclosing] at hrunning
      cases hrunning

/-- Without a `close` under way the contexts are those of the state. -/
theorem open_of_closing_none {s : TcpServerTransport} (h : s.closing = none) :
    s.openListen = s.listenContext ∧ s.openClient = s.clientContext := by
  unfold openListen openClient
  rw [h]
  exact ⟨rfl, rfl⟩

/-- A state that is not being closed follows its watch if the contexts do. -/
theorem Follows.of_closing_none (hclosing : s.closing = none) (hwatched : Watch.watched s.emitted = some w)
    (hlisten : w.listen = s.listenContext.map connectionId)
    (hclient : w.client = s.clientContext.map connectionId)
    (hseen : ∀ id ∈ w.seen, id < s.nextConnectionId)
    (hidle : s.runtime.running = false → s.listenContext = none ∧ s.clientContext = none)
    (hlistening : s.runtime.running = true → s.listenContext.isSome = true)
    (hstopping : s.runtime.stopping = false) : Follows s w := by
  obtain ⟨hopenListen, hopenClient⟩ := open_of_closing_none hclosing
  refine ⟨hwatched, ?_, ?_, hseen, hidle, hlistening, ?_, ?_, ?_⟩
  · rw [hopenListen]
    exact hlisten
  · rw [hopenClient]
    exact hclient
  · rw [hstopping, hclosing]
    constructor
    · intro hfalse
      cases hfalse
    · rintro ⟨_, _, hnone⟩
      cases hnone
  · intro _ _ hcaptured
    rw [hclosing] at hcaptured
    cases hcaptured
  · intro _ _ hjoined
    rw [hclosing] at hjoined
    cases hjoined

/-- The client's read has failed: it closes, unless the transport is being closed. -/
theorem readFailed_follows (h : Follows s w) (hrunning : s.runtime.running = true)
    (error : String) (nowMs : Nat) : ∃ w, Follows (s.readFailed error nowMs) w := by
  unfold readFailed
  split
  · exact ⟨w, h⟩
  · rename_i hguard
    rw [Bool.or_eq_true, not_or, Bool.not_eq_true, Option.isNone_iff_eq_none] at hguard
    obtain ⟨context, hclient⟩ := Option.ne_none_iff_exists'.mp hguard.2
    rw [pushEventFor_some _ hclient]
    refine ⟨{ w with client := none }, ?_⟩
    refine Follows.of_closing_none (h.closing_none hrunning hguard.1) ?_ ?_ rfl h.seen
      (fun hidle => ⟨(h.idle hidle).1, rfl⟩) h.listening hguard.1
    · exact h.watched_emit (if_pos (h.client_open hrunning hclient))
    · exact h.listen.trans (congrArg _ (h.running_open hrunning).1)

theorem readHandler_follows (h : Follows s w) (hrunning : s.runtime.running = true)
    (generation : Nat) (result : Except String (List UInt8)) (nowMs : Nat) :
    ∃ w, Follows (s.readHandler generation result nowMs) w := by
  have hend : Follows (s.endRead generation) w := h.of_same (.of_eq rfl rfl rfl rfl rfl rfl rfl)
  unfold readHandler
  split
  · exact ⟨w, hend⟩
  · split
    · exact readFailed_follows hend hrunning _ nowMs
    · rename_i bytes
      refine ⟨w, ?_⟩
      exact (readBytes_follows hend hrunning bytes nowMs).of_same
        (.of_eq rfl rfl rfl rfl rfl rfl rfl)

/-- A client that is taken over is closed first. -/
theorem closeOld_follows (h : Follows s w) (hrunning : s.runtime.running = true)
    (reason : String) (nowMs : Nat) :
    ∃ w', Watch.watched (s.pushEventFor s.clientContext fun context =>
          .close (stamped context nowMs) reason).emitted = some w' ∧
        w'.listen = w.listen ∧ w'.client = none ∧ w'.seen = w.seen := by
  cases hclient : s.clientContext with
  | none =>
    refine ⟨w, h.watched, rfl, ?_, rfl⟩
    rw [h.client, (h.running_open hrunning).2, hclient]
    rfl
  | some context =>
    exact ⟨{ w with client := none }, h.watched_emit (if_pos (h.client_open hrunning hclient)),
      rfl, rfl, rfl⟩

/-- A fresh id opens. -/
theorem fresh_of_seen (h : Follows s w) : w.seen.contains s.nextConnectionId = false := by
  rw [List.contains_eq_mem, decide_eq_false_iff_not]
  intro hmem
  exact Nat.lt_irrefl _ (h.seen _ hmem)

theorem pushEventFor_frame (s : TcpServerTransport) (found : Option ConnectionContext)
    (event : ConnectionContext → TransportEvent) :
    ∃ events emitted, s.pushEventFor found event = { s with events := events, emitted := emitted } := by
  cases found with
  | none => exact ⟨s.events, s.emitted, rfl⟩
  | some context => exact ⟨_, _, rfl⟩

theorem takeClient_follows (h : Follows s w) (hrunning : s.runtime.running = true)
    (hstopping : s.runtime.stopping = false) (endpoint : String) (nowMs : Nat) :
    ∃ w, Follows (s.takeClient endpoint nowMs) w := by
  obtain ⟨w', hwatched, hlisten, hclient, hseen⟩ :=
    closeOld_follows h hrunning "新客户端已接管旧连接" nowMs
  have hclosing := h.closing_none hrunning hstopping
  have hopen := (h.running_open hrunning).1
  unfold takeClient
  obtain ⟨events, emitted, hframe⟩ := pushEventFor_frame s s.clientContext fun context =>
    .close (stamped context nowMs) "新客户端已接管旧连接"
  rw [hframe] at hwatched ⊢
  have hlistening : w'.listen.isSome = true := by
    rw [hlisten, h.listen, hopen, Option.isSome_map]
    exact h.listening hrunning
  have hfresh : w'.seen.contains s.nextConnectionId = false := by
    rw [hseen]
    exact fresh_of_seen h
  refine ⟨{ w' with
    client := some s.nextConnectionId
    seen := s.nextConnectionId :: w'.seen }, ?_⟩
  refine Follows.of_closing_none hclosing ?_ ?_ rfl ?_ ?_ h.listening hstopping
  · refine (watched_concat emitted _).trans ?_
    rw [show Watch.watched emitted = some w' from hwatched]
    show w'.opened (s.makeClientContext endpoint nowMs) = _
    unfold Watch.opened makeClientContext
    dsimp only
    rw [hfresh, hclient, hlistening]
    rfl
  · exact hlisten.trans (h.listen.trans (congrArg _ hopen))
  · intro id hid
    obtain rfl | hid := List.mem_cons.mp hid
    · exact Nat.lt_succ_self _
    · rw [hseen] at hid
      exact Nat.lt_succ_of_lt (h.seen id hid)
  · intro hidle
    rw [show s.runtime.running = false from hidle] at hrunning
    cases hrunning

/-- A stopped transport has closed everything once nothing is being reported. -/
theorem Follows.closed (h : Follows s w) (hclosing : s.closing = none)
    (hrunning : s.runtime.running = false) : w.listen = none ∧ w.client = none := by
  obtain ⟨hopenListen, hopenClient⟩ := open_of_closing_none hclosing
  obtain ⟨hlisten, hclient⟩ := h.idle hrunning
  rw [h.listen, h.client, hopenListen, hopenClient, hlisten, hclient]
  exact ⟨rfl, rfl⟩

theorem Follows.stopping_false (h : Follows s w) (hclosing : s.closing = none) :
    s.runtime.stopping = false := by
  rw [← Bool.not_eq_true, h.stopping, hclosing]
  rintro ⟨_, _, hcaptured⟩
  cases hcaptured

theorem openListener_follows (h : Follows s w) (hclosing : s.closing = none)
    (hrunning : s.runtime.running = false) (rejectNewConnection : Bool) (nowMs : Nat)
    (result : OpenResult) :
    ∃ w, Follows (s.openListener rejectNewConnection nowMs result) w := by
  obtain ⟨hlisten, hclient⟩ := h.closed hclosing hrunning
  obtain ⟨hlistenContext, hclientContext⟩ := h.idle hrunning
  have hstopping := h.stopping_false hclosing
  cases result with
  | wrongConfig =>
    refine ⟨w, h.of_same (SameConnections.trans (t := { s with state := .error })
      (.of_eq rfl rfl rfl rfl rfl rfl rfl) (pushEvent_same _ rfl))⟩
  | failed bindEndpoint error =>
    refine ⟨w, Follows.of_closing_none hclosing ?_ ?_ ?_ h.seen (fun _ => ⟨rfl, rfl⟩)
      (fun hfalse => Bool.noConfusion hfalse) rfl⟩
    · exact h.watched_emit rfl
    · exact hlisten
    · exact hclient
  | listening localEndpoint =>
    refine ⟨{ w with
      listen := some s.nextConnectionId
      seen := s.nextConnectionId :: w.seen }, ?_⟩
    refine Follows.of_closing_none hclosing ?_ rfl ?_ ?_ (fun hfalse => Bool.noConfusion hfalse)
      (fun _ => rfl) hstopping
    · refine h.watched_emit ?_
      show w.opened (s.makeListenContext localEndpoint nowMs) = _
      unfold Watch.opened makeListenContext
      dsimp only
      rw [fresh_of_seen h, hclient, hlisten]
      rfl
    · show w.client = s.clientContext.map connectionId
      rw [hclient, hclientContext]
      rfl
    · intro id hid
      obtain rfl | hid := List.mem_cons.mp hid
      · exact Nat.lt_succ_self _
      · exact Nat.lt_succ_of_lt (h.seen id hid)

/-! ### Closing -/

theorem closeCapture_follows (h : Follows s w) (hclosing : s.closing = none) :
    Follows s.closeCapture w := by
  obtain ⟨hopenListen, hopenClient⟩ := open_of_closing_none hclosing
  refine ⟨h.watched, ?_, ?_, h.seen, h.idle, h.listening, ?_, ?_, ?_⟩
  · exact h.listen.trans (congrArg _ hopenListen)
  · exact h.client.trans (congrArg _ hopenClient)
  · exact ⟨fun _ => ⟨_, _, rfl⟩, fun _ => rfl⟩
  · intro client listen hcaptured
    obtain ⟨rfl, rfl⟩ := ClosePhase.captured.inj (Option.some.inj hcaptured)
    exact ⟨rfl, rfl⟩
  · intro client listen hjoined
    exact ClosePhase.noConfusion (Option.some.inj hjoined)

/-- What was captured is still what is open when the thread has stopped. -/
theorem closeJoin_follows (h : Follows s w) : Follows s.closeJoin w := by
  unfold closeJoin
  split
  · rename_i client listen hclosing
    obtain ⟨hclient, hlisten⟩ := h.captured client listen hclosing
    have hopenListen : s.openListen = s.listenContext := by
      unfold openListen
      rw [hclosing]
    have hopenClient : s.openClient = s.clientContext := by
      unfold openClient
      rw [hclosing]
    refine ⟨h.watched, ?_, ?_, h.seen, fun _ => ⟨rfl, rfl⟩, ?_, ?_, ?_, fun _ _ _ => rfl⟩
    · show w.listen = listen.map connectionId
      rw [h.listen, hopenListen, hlisten]
    · show w.client = client.map connectionId
      rw [h.client, hopenClient, hclient]
    · exact fun hfalse => Bool.noConfusion hfalse
    · constructor
      · exact fun hfalse => Bool.noConfusion hfalse
      · rintro ⟨_, _, hcaptured⟩
        exact ClosePhase.noConfusion (Option.some.inj hcaptured)
    · intro _ _ hcaptured
      exact ClosePhase.noConfusion (Option.some.inj hcaptured)
  · exact h

/-- The client that is reported is open, or there is none. -/
theorem watched_closeClient (hwatched : Watch.watched s.emitted = some w)
    {client : Option ConnectionContext}
    (hclient : w.client = client.map connectionId) (reason : String)
    (nowMs : Nat) :
    Watch.watched (s.pushEventFor client fun context =>
      .close (stamped context nowMs) reason).emitted = some { w with client := none } := by
  cases client with
  | none =>
    rw [show ({ w with client := none } : Watch) = w from by rw [← show w.client = none from hclient]]
    exact hwatched
  | some context =>
    refine (watched_concat _ _).trans ?_
    rw [hwatched]
    exact if_pos hclient

theorem watched_closeListener (hwatched : Watch.watched s.emitted = some w)
    (hnone : w.client = none) {listen : Option ConnectionContext}
    (hlisten : w.listen = listen.map connectionId) (reason : String)
    (nowMs : Nat) :
    Watch.watched (s.pushEventFor listen fun context =>
      .close (stamped context nowMs) reason).emitted = some { w with listen := none } := by
  cases listen with
  | none =>
    rw [show ({ w with listen := none } : Watch) = w from by rw [← show w.listen = none from hlisten]]
    exact hwatched
  | some context =>
    refine (watched_concat _ _).trans ?_
    rw [hwatched]
    show w.closed (stamped context nowMs) = _
    unfold Watch.closed stamped
    dsimp only
    rw [hnone, hlisten, if_neg (Option.some_ne_none _).symm]
    exact if_pos ⟨rfl, rfl⟩

theorem closeReport_follows (h : Follows s w) (nowMs : Nat) :
    ∃ w, Follows (s.closeReport nowMs) w := by
  unfold closeReport
  split
  · rename_i client listen hclosing
    have hrunning := h.joined client listen hclosing
    obtain ⟨hlistenContext, hclientContext⟩ := h.idle hrunning
    have hclient : w.client = client.map connectionId := by
      rw [h.client]
      unfold openClient
      rw [hclosing]
    have hlisten : w.listen = listen.map connectionId := by
      rw [h.listen]
      unfold openListen
      rw [hclosing]
    have hreported := watched_closeClient (s := { s with closing := none }) h.watched hclient
      "用户主动关闭" nowMs
    have hboth := watched_closeListener hreported rfl hlisten "监听已关闭" nowMs
    obtain ⟨events, emitted, hframe⟩ := pushEventFor_frame { s with closing := none } client
      fun context => .close (stamped context nowMs) "用户主动关闭"
    rw [hframe] at hboth ⊢
    let reported : TcpServerTransport := { s with closing := none, events := events, emitted := emitted }
    obtain ⟨events', emitted', hframe'⟩ := pushEventFor_frame reported listen
      fun context => .close (stamped context nowMs) "监听已关闭"
    rw [show reported = _ from rfl] at hframe'
    rw [hframe'] at hboth ⊢
    refine ⟨_, Follows.of_closing_none rfl hboth ?_ ?_ h.seen (fun _ => ⟨hlistenContext, hclientContext⟩)
      ?_ ?_⟩
    · show none = s.listenContext.map connectionId
      rw [hlistenContext]
      rfl
    · show none = s.clientContext.map connectionId
      rw [hclientContext]
      rfl
    · intro hfalse
      rw [show s.runtime.running = true from hfalse] at hrunning
      cases hrunning
    · show s.runtime.stopping = false
      rw [← Bool.not_eq_true, h.stopping, hclosing]
      rintro ⟨_, _, hcaptured⟩
      exact ClosePhase.noConfusion (Option.some.inj hcaptured)
  · exact ⟨w, h⟩

/-- A new client is taken on although `close` has begun. -/
def takesLateClient (s : TcpServerTransport) : ServerStep → Bool
  | .accept (.ok _) _ =>
    s.runtime.running && s.runtime.accepting && s.runtime.stopping && !s.rejectsClient
  | _ => false

theorem accept_follows (h : Follows s w) (hrunning : s.runtime.running = true)
    (hstopping : s.runtime.stopping = false ∨ s.rejectsClient = true) (endpoint : String)
    (nowMs : Nat) : ∃ w, Follows (s.acceptClient endpoint nowMs) w := by
  unfold acceptClient
  split
  · exact ⟨w, h.of_same (pushEventFor_same _ _ fun _ => rfl)⟩
  · rename_i haccepts
    exact takeClient_follows h hrunning (hstopping.resolve_right haccepts) endpoint nowMs

/-- No other step loses track of what is open. -/
theorem step_follows (h : Follows s w) (step : ServerStep)
    (hlate : s.takesLateClient step = false) : ∃ w, Follows (s.step step) w := by
  cases step with
  | otherConnection =>
    exact ⟨w, h.of_same ⟨rfl, rfl, Nat.le_succ _, rfl, rfl, rfl, [], (List.append_nil _).symm,
      fun _ hevent => by cases hevent⟩⟩
  | «open» rejectNewConnection nowMs result =>
    unfold step
    dsimp only
    split
    · rename_i hguard
      rw [Bool.and_eq_true, Option.isNone_iff_eq_none, Bool.not_eq_true'] at hguard
      exact openListener_follows h hguard.1 hguard.2 rejectNewConnection nowMs result
    · exact ⟨w, h⟩
  | accept result nowMs =>
    unfold step
    dsimp only
    split
    · rename_i hguard
      obtain ⟨hrunning, haccepting⟩ := Bool.and_eq_true_iff.mp hguard
      cases result with
      | error error => exact ⟨w, h.of_same (acceptFailed_same error nowMs)⟩
      | ok endpoint =>
        unfold takesLateClient at hlate
        dsimp only at hlate
        rw [hrunning, haccepting, Bool.true_and, Bool.true_and, Bool.and_eq_false_iff,
          Bool.not_eq_false'] at hlate
        exact accept_follows h hrunning hlate endpoint nowMs
    · exact ⟨w, h⟩
  | read generation result nowMs =>
    unfold step
    dsimp only
    split
    · rename_i hguard
      exact readHandler_follows h (Bool.and_eq_true_iff.mp hguard).1 generation result nowMs
    · exact ⟨w, h⟩
  | runPosted result =>
    unfold step
    dsimp only
    split
    · exact ⟨w, h.of_same (runPosted_same result)⟩
    · exact ⟨w, h⟩
  | enqueueSend task =>
    unfold step
    dsimp only
    split
    · exact ⟨w, h.of_same (enqueueSend_same task)⟩
    · exact ⟨w, h⟩
  | send bytes result =>
    unfold step
    dsimp only
    split
    · exact ⟨w, h.of_same (send_same bytes result)⟩
    · exact ⟨w, h⟩
  | takeEvents => exact ⟨w, h.of_same (.of_eq rfl rfl rfl rfl rfl rfl rfl)⟩
  | closeCapture =>
    unfold step
    dsimp only
    split
    · rename_i hguard
      exact ⟨w, closeCapture_follows h (Option.isNone_iff_eq_none.mp hguard)⟩
    · exact ⟨w, h⟩
  | closeJoin => exact ⟨w, closeJoin_follows h⟩
  | closeReport nowMs => exact closeReport_follows h nowMs

end Step

/-! ### Runs -/

/-- No step of the run takes a client on while `close` is under way. -/
def NoLateClient : TcpServerTransport → List ServerStep → Prop
  | _, [] => True
  | s, step :: steps => s.takesLateClient step = false ∧ NoLateClient (s.step step) steps

theorem run_follows {s : TcpServerTransport} {w : Watch} (h : Follows s w)
    (steps : List ServerStep) (hlate : NoLateClient s steps) :
    ∃ w, Follows (s.run steps) w := by
  induction steps generalizing s w with
  | nil => exact ⟨w, h⟩
  | cons step steps ih =>
    obtain ⟨w', hstep⟩ := step_follows h step hlate.1
    exact ih hstep hlate.2

/-- What the events of a transport have to be: the watch accepts them, and nothing is open
any more once the transport is stopped and has reported that. -/
structure EventsConsistent (s : TcpServerTransport) : Prop where
  watched : (Watch.watched s.emitted).isSome = true
  closed : s.closing = none → s.runtime.running = false →
    ∀ w, Watch.watched s.emitted = some w → w.listen = none ∧ w.client = none

theorem Follows.consistent {s : TcpServerTransport} {w : Watch} (h : Follows s w) :
    EventsConsistent s where
  watched := by
    rw [h.watched]
    rfl
  closed := by
    intro hclosing hrunning w' hwatched
    rw [h.watched] at hwatched
    obtain rfl := Option.some.inj hwatched
    exact h.closed hclosing hrunning

/-- **Every run in which no client is taken on during `close` has consistent events**,
whatever the order of the handlers, the calls and the three steps of `close`. -/
theorem events_consistent (steps : List ServerStep) (hlate : NoLateClient {} steps) :
    EventsConsistent (run {} steps) :=
  let ⟨_, h⟩ := run_follows follows_initial steps hlate
  h.consistent

/-- A run with a take-over, bytes and a read error, closed at the end. -/
def orderlyRun : List ServerStep :=
  [.open false 0 (.listening "0.0.0.0:5000"), .accept (.ok "10.0.0.1:4000") 1,
    .read 1 (.ok [1, 2]) 2, .accept (.ok "10.0.0.2:4000") 3, .read 1 (.ok [3]) 4,
    .read 2 (.error "reset") 5, .accept (.ok "10.0.0.3:4000") 6, .closeCapture,
    .read 3 (.error "aborted") 7, .closeJoin, .closeReport 8]

theorem orderlyRun_consistent :
    NoLateClient {} orderlyRun ∧ EventsConsistent (run {} orderlyRun) := by
  have hlate : NoLateClient {} orderlyRun := by
    refine ⟨rfl, rfl, rfl, rfl, rfl, rfl, rfl, rfl, rfl, rfl, rfl, trivial⟩
  exact ⟨hlate, events_consistent orderlyRun hlate⟩

/-- The client of this run is taken over after `close` has captured it: it closes twice,
and its successor, which no `close` knows of, never. -/
def lateClientRun : List ServerStep :=
  [.open false 0 (.listening "0.0.0.0:5000"), .accept (.ok "10.0.0.1:4000") 1, .closeCapture,
    .accept (.ok "10.0.0.2:4000") 2, .closeJoin, .closeReport 3]

theorem late_client_inconsistent :
    ¬ ∀ steps : List ServerStep, EventsConsistent (run {} steps) := by
  intro hall
  have hwatched := (hall lateClientRun).watched
  have hnone : Watch.watched (run {} lateClientRun).emitted = none := by decide
  rw [hnone] at hwatched
  cases hwatched

end TcpServerTransport

end ProtoScope.Transport
