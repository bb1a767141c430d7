/-
Received bytes are neither lost nor doubled.

The two queues, one behind the other, hold what has arrived and is not yet handed on; a round
of the pump moves bytes from their front to the worker, the raw capture and the rows at once,
however few the worker accepts.  Bytes are dropped in one case only, where a ready connection
is not the active one, so the events that wait must lead to the bytes that follow them.
-/
import ProtoScope.App.LiveRx

namespace ProtoScope.App

open ProtoScope.Transport

namespace LiveRx

/-! ### What waits -/

/-- The bytes of the two queues. -/
def waiting (rx : LiveRx) : List UInt8 :=
  rx.pendingRxByteChunks.flatMap chunkBytes ++ rx.pendingTransportEvents.flatMap eventBytes

def activeId (rx : LiveRx) : Option Nat := rx.activeConnection.map (·.connectionId)

def chunkEvent (pending : PendingRxBytes) : TransportEvent :=
  .bytes { context := pending.context, bytes := chunkBytes pending }

/-- The two queues as one, in the order of the pump. -/
def queue (rx : LiveRx) : List TransportEvent :=
  rx.pendingRxByteChunks.map chunkEvent ++ rx.pendingTransportEvents

/-- The active connection once the event is processed. -/
def after (active : Option Nat) : TransportEvent → Option Nat
  | .open context => if context.readyForIo then some context.connectionId else active
  | .close context _ => if active = some context.connectionId then none else active
  | _ => active

/-- The bytes are those of the active connection, or detached. -/
def Belongs (active : Option Nat) : TransportEvent → Prop
  | .bytes event => event.context.readyForIo = true → event.bytes ≠ [] →
      active = some event.context.connectionId
  | _ => True

/-- All bytes among the events are those of the connection active by then, or detached. -/
def Follows : Option Nat → List TransportEvent → Prop
  | _, [] => True
  | active, event :: events => Belongs active event ∧ Follows (after active event) events

theorem follows_append {active : Option Nat} {first second : List TransportEvent} :
    Follows active (first ++ second) ↔
      Follows active first ∧ Follows (first.foldl after active) second := by
  induction first generalizing active with
  | nil => exact ⟨fun h => ⟨trivial, h⟩, fun h => h.2⟩
  | cons event events ih =>
    rw [List.cons_append, Follows, ih, Follows, List.foldl_cons, and_assoc]

variable {events : List TransportEvent} {rx : LiveRx}

/-- Bytes that are detached belong to any connection. -/
theorem follows_of_detached
    (h : ∀ event ∈ events, ∃ bytes, event = .bytes bytes ∧ bytes.context.readyForIo = false)
    (active : Option Nat) : Follows active events := by
  induction events generalizing active with
  | nil => trivial
  | cons event events ih =>
    obtain ⟨bytes, rfl, hdetached⟩ := h event List.mem_cons_self
    refine ⟨fun hready => ?_, ih (fun event hevent => h event (List.mem_cons_of_mem _ hevent)) _⟩
    rw [hdetached] at hready
    cases hready

theorem foldl_after_bytes (h : ∀ event ∈ events, ∃ bytes, event = .bytes bytes)
    (active : Option Nat) : events.foldl after active = active := by
  induction events with
  | nil => rfl
  | cons event events ih =>
    obtain ⟨bytes, rfl⟩ := h event List.mem_cons_self
    exact ih fun event hevent => h event (List.mem_cons_of_mem _ hevent)

/-- What arrived is what was handed on, recorded and shown, and what waits; once that is
processed, the active connection is `expected`. -/
structure Conserves (expected : Option Nat) (rx : LiveRx) : Prop where
  recorded : rx.recorded = rx.handed
  shown : rx.shown = rx.handed
  received : rx.received = rx.handed ++ rx.waiting
  follows : Follows rx.activeId rx.queue
  expects : rx.queue.foldl after rx.activeId = expected

variable {expected : Option Nat}

/-! ### Handing on -/

/-- The bytes are handed on, recorded and shown, and nothing else changes that a queue rests
on. -/
structure Delivered (rx : LiveRx) (bytes : List UInt8) (rx' : LiveRx) : Prop where
  handed : rx'.handed = rx.handed ++ bytes
  recorded : rx'.recorded = rx.recorded ++ bytes
  shown : rx'.shown = rx.shown ++ bytes
  received : rx'.received = rx.received
  events : rx'.pendingTransportEvents = rx.pendingTransportEvents
  chunks : rx'.pendingRxByteChunks = rx.pendingRxByteChunks
  active : rx'.activeId = rx.activeId

theorem Delivered.none (rx : LiveRx) : Delivered rx [] rx :=
  ⟨(List.append_nil _).symm, (List.append_nil _).symm, (List.append_nil _).symm, rfl, rfl, rfl, rfl⟩

theorem deliver_delivered (rx : LiveRx) (bytes : List UInt8) :
    Delivered rx bytes (rx.deliver bytes) :=
  ⟨rfl, rfl, rfl, rfl, rfl, rfl, rfl⟩

theorem foreign_of_belongs {event : TransportBytesEvent} (h : Belongs rx.activeId (.bytes event))
    (hne : event.bytes ≠ []) : rx.foreign event.context = false := by
  unfold foreign
  cases hready : event.context.readyForIo with
  | false => rfl
  | true =>
    have hactive : rx.activeConnection.map (·.connectionId) = some event.context.connectionId :=
      h hready hne
    simp [hactive]

/-- What the worker accepts is delivered, from the front; without the worker's thread it is
all that is asked for. -/
theorem tryProcessLiveRxBytes_delivered {event : TransportBytesEvent} (maxBytes accepts : Nat)
    (h : Belongs rx.activeId (.bytes event)) :
    let result := rx.tryProcessLiveRxBytes event maxBytes accepts
    Delivered rx (event.bytes.take result.2) result.1 ∧
      result.2 ≤ min event.bytes.length maxBytes ∧
      (rx.workerEnabled = false → result.2 = min event.bytes.length maxBytes) := by
  dsimp only [tryProcessLiveRxBytes]
  by_cases hnothing : (event.bytes.isEmpty || maxBytes == 0) = true
  · rw [if_pos hnothing]
    rw [Bool.or_eq_true, List.isEmpty_iff, beq_iff_eq] at hnothing
    refine ⟨by rw [List.take_zero]; exact Delivered.none rx, Nat.zero_le _, fun _ => ?_⟩
    rcases hnothing with hempty | hzero
    · rw [hempty]
      exact (Nat.zero_min _).symm
    · rw [hzero]
      exact (Nat.min_zero _).symm
  · rw [if_neg hnothing]
    rw [Bool.or_eq_true, List.isEmpty_iff, not_or] at hnothing
    rw [foreign_of_belongs h hnothing.1, if_neg (by decide)]
    have hactive : ∀ rx' : LiveRx, rx'.activeId = rx.activeId →
        (if event.context.readyForIo then { rx' with activeConnection := some event.context }
          else rx').activeId = rx.activeId := by
      intro rx' hsame
      by_cases hready : event.context.readyForIo = true
      · rw [if_pos hready]
        exact (h hready hnothing.1).symm
      · rw [if_neg hready]
        exact hsame
    have hdelivered : ∀ accepted, Delivered rx (event.bytes.take accepted)
        (if event.context.readyForIo then
          { rx.deliver (event.bytes.take accepted) with activeConnection := some event.context }
        else rx.deliver (event.bytes.take accepted)) := by
      intro accepted
      refine ⟨?_, ?_, ?_, ?_, ?_, ?_, hactive (rx.deliver (event.bytes.take accepted)) rfl⟩ <;>
        split <;> rfl
    cases hworker : rx.workerEnabled with
    | false => exact ⟨hdelivered _, Nat.le_refl _, fun _ => rfl⟩
    | true =>
      rw [if_pos rfl, Bool.true_and]
      split
      · exact ⟨by rw [List.take_zero]; exact Delivered.none rx, Nat.zero_le _,
          fun hc => by cases hc⟩
      · exact ⟨hdelivered _, Nat.min_le_left .., fun hc => by cases hc⟩

/-- Without the worker's thread, or detached, all of it is delivered. -/
theorem processTransportBytesEvent_delivered {event : TransportBytesEvent} (accepts : Nat)
    (h : Belongs rx.activeId (.bytes event))
    (hwhole : rx.workerEnabled = false ∨ event.context.readyForIo = false) :
    Delivered rx event.bytes (rx.processTransportBytesEvent event accepts) := by
  unfold processTransportBytesEvent
  split
  · rename_i hempty
    rw [List.isEmpty_iff.mp hempty]
    exact Delivered.none rx
  · split
    · rename_i hready
      have hworker : rx.workerEnabled = false := by
        rcases hwhole with hworker | hdetached
        · exact hworker
        · rw [hdetached] at hready
          cases hready
      obtain ⟨hdelivered, -, hall⟩ :=
        tryProcessLiveRxBytes_delivered event.bytes.length accepts h
      rw [hall hworker, Nat.min_self, List.take_length] at hdelivered
      exact hdelivered
    · exact deliver_delivered rx event.bytes

theorem Conserves.of_delivered_nil {rx' : LiveRx} (h : Conserves expected rx)
    (hdelivered : Delivered rx [] rx') : Conserves expected rx' := by
  have hhanded := hdelivered.handed
  rw [List.append_nil] at hhanded
  refine ⟨?_, ?_, ?_, ?_, ?_⟩
  · rw [hdelivered.recorded, hhanded, List.append_nil]
    exact h.recorded
  · rw [hdelivered.shown, hhanded, List.append_nil]
    exact h.shown
  · unfold waiting
    rw [hdelivered.received, hhanded, hdelivered.chunks, hdelivered.events]
    exact h.received
  · unfold queue
    rw [hdelivered.active, hdelivered.chunks, hdelivered.events]
    exact h.follows
  · unfold queue
    rw [hdelivered.active, hdelivered.chunks, hdelivered.events]
    exact h.expects

/-! ### The chunk in front -/

theorem chunkBytes_advance (pending : PendingRxBytes) (accepted : Nat) :
    chunkBytes pending = (chunkBytes pending).take accepted ++
      chunkBytes { pending with offset := pending.offset + accepted } := by
  unfold chunkBytes
  rw [← List.drop_drop, List.take_append_drop]

/-- The front of the chunk in front is handed on. -/
theorem Conserves.advance {rx' : LiveRx} {pending : PendingRxBytes} {rest : List PendingRxBytes}
    {accepted : Nat} (h : Conserves expected rx)
    (hchunks : rx.pendingRxByteChunks = pending :: rest)
    (hdelivered : Delivered rx ((chunkBytes pending).take accepted) rx') :
    Conserves expected
      { rx' with
        pendingRxByteChunks :=
          if pending.bytes.length ≤ pending.offset + accepted then rest
          else { pending with offset := pending.offset + accepted } :: rest } := by
  have hwaiting : ({ rx' with
      pendingRxByteChunks :=
        if pending.bytes.length ≤ pending.offset + accepted then rest
        else { pending with offset := pending.offset + accepted } :: rest } : LiveRx).waiting =
      chunkBytes { pending with offset := pending.offset + accepted } ++
        (rest.flatMap chunkBytes ++ rx.pendingTransportEvents.flatMap eventBytes) := by
    unfold waiting
    rw [hdelivered.events]
    dsimp only
    split
    · rename_i hdone
      have hnone : chunkBytes { pending with offset := pending.offset + accepted } = [] :=
        List.drop_eq_nil_of_le hdone
      rw [hnone, List.nil_append]
    · rw [List.flatMap_cons, List.append_assoc]
  have hfollows := h.follows
  have hexpects := h.expects
  unfold queue at hfollows hexpects
  rw [hchunks, List.map_cons, List.cons_append, Follows] at hfollows
  rw [hchunks, List.map_cons, List.cons_append, List.foldl_cons] at hexpects
  obtain ⟨hbelongs, hrest⟩ := hfollows
  have hactive : ({ rx' with
      pendingRxByteChunks :=
        if pending.bytes.length ≤ pending.offset + accepted then rest
        else { pending with offset := pending.offset + accepted } :: rest } : LiveRx).activeId =
      rx.activeId := hdelivered.active
  refine ⟨?_, ?_, ?_, ?_, ?_⟩
  · show rx'.recorded = rx'.handed
    rw [hdelivered.recorded, hdelivered.handed, h.recorded]
  · show rx'.shown = rx'.handed
    rw [hdelivered.shown, hdelivered.handed, h.shown]
  · show rx'.received = rx'.handed ++ _
    rw [hwaiting, hdelivered.received, hdelivered.handed, h.received, List.append_assoc,
      ← List.append_assoc ((chunkBytes pending).take accepted), ← chunkBytes_advance]
    unfold waiting
    rw [hchunks, List.flatMap_cons, List.append_assoc]
  · rw [hactive]
    unfold queue
    rw [hdelivered.events]
    dsimp only
    split
    · exact hrest
    · rw [List.map_cons, List.cons_append, Follows]
      refine ⟨fun hready hne => hbelongs hready fun hnone => hne ?_, hrest⟩
      have hbytes : chunkBytes pending = [] := hnone
      show chunkBytes { pending with offset := pending.offset + accepted } = []
      rw [chunkBytes_advance pending accepted] at hbytes
      exact (List.append_eq_nil_iff.mp hbytes).2
  · rw [hactive]
    unfold queue
    rw [hdelivered.events]
    dsimp only
    split <;> exact hexpects

theorem processPendingRxBytes_conserves (maxBytes accepts : Nat) (h : Conserves expected rx) :
    Conserves expected (rx.processPendingRxBytes maxBytes accepts) := by
  unfold processPendingRxBytes
  split
  · exact h
  · rename_i pending rest hchunks
    split
    · exact h
    · rename_i hmax
      dsimp only
      have hlength : pending.bytes.length - pending.offset = (chunkBytes pending).length :=
        List.length_drop.symm
      rw [hlength]
      have hchunk : (pending.bytes.drop pending.offset).take
          (min (chunkBytes pending).length maxBytes) =
          (chunkBytes pending).take (min (chunkBytes pending).length maxBytes) := rfl
      rw [hchunk]
      have hfront : Belongs rx.activeId (.bytes
          { context := pending.context
            bytes := (chunkBytes pending).take (min (chunkBytes pending).length maxBytes) }) := by
        have hfollows := h.follows
        unfold queue at hfollows
        rw [hchunks, List.map_cons, List.cons_append, Follows] at hfollows
        intro hready hne
        refine hfollows.1 hready fun hnone => hne ?_
        have hbytes : chunkBytes pending = [] := hnone
        rw [hbytes, List.take_nil]
      have htaken : ((chunkBytes pending).take (min (chunkBytes pending).length maxBytes)).length =
          min (chunkBytes pending).length maxBytes := by
        rw [List.length_take]
        omega
      by_cases hlive : (rx.workerEnabled && pending.context.readyForIo) = true
      · rw [if_pos hlive]
        obtain ⟨hdelivered, hle, -⟩ := tryProcessLiveRxBytes_delivered
          (min (chunkBytes pending).length maxBytes) accepts hfront
        generalize rx.tryProcessLiveRxBytes
          { context := pending.context
            bytes := (chunkBytes pending).take (min (chunkBytes pending).length maxBytes) }
          (min (chunkBytes pending).length maxBytes) accepts = result at hdelivered hle ⊢
        dsimp only at hdelivered hle ⊢
        rw [List.take_take, Nat.min_eq_left (by omega)] at hdelivered
        split
        · rename_i hnone
          rw [hnone, List.take_zero] at hdelivered
          exact h.of_delivered_nil hdelivered
        · exact h.advance hchunks hdelivered
      · rw [if_neg hlive]
        dsimp only
        split
        · exact h
        · refine h.advance hchunks (processTransportBytesEvent_delivered accepts hfront ?_)
          rw [Bool.and_eq_true, not_and_or, Bool.not_eq_true, Bool.not_eq_true] at hlive
          exact hlive

/-! ### The event in front -/

/-- Without chunks the events are the queue. -/
theorem Conserves.front {event : TransportEvent} (h : Conserves expected rx)
    (hchunks : rx.pendingRxByteChunks = []) (hevents : rx.pendingTransportEvents = event :: events)
    :
    Belongs rx.activeId event ∧ Follows (after rx.activeId event) events ∧
      events.foldl after (after rx.activeId event) = expected ∧
      rx.received = rx.handed ++ (eventBytes event ++ events.flatMap eventBytes) := by
  have hfollows := h.follows
  have hexpects := h.expects
  have hreceived := h.received
  unfold queue at hfollows hexpects
  unfold waiting at hreceived
  rw [hchunks, hevents, List.map_nil, List.nil_append, Follows] at hfollows
  rw [hchunks, hevents, List.map_nil, List.nil_append, List.foldl_cons] at hexpects
  rw [hchunks, hevents, List.flatMap_nil, List.nil_append, List.flatMap_cons] at hreceived
  exact ⟨hfollows.1, hfollows.2, hexpects, hreceived⟩

/-- The event in front is used up, or a part of its bytes. -/
theorem Conserves.consume {rx' : LiveRx} {bytes : List UInt8} (h : Conserves expected rx)
    (hchunks : rx.pendingRxByteChunks = []) (hdelivered : Delivered rx bytes rx')
    (hreceived : rx.received = rx.handed ++ (bytes ++ events.flatMap eventBytes))
    (hfollows : Follows rx.activeId events) (hexpects : events.foldl after rx.activeId = expected) :
    Conserves expected { rx' with pendingTransportEvents := events } := by
  have hnone : rx'.pendingRxByteChunks = [] := hdelivered.chunks.trans hchunks
  refine ⟨?_, ?_, ?_, ?_, ?_⟩
  · show rx'.recorded = rx'.handed
    rw [hdelivered.recorded, hdelivered.handed, h.recorded]
  · show rx'.shown = rx'.handed
    rw [hdelivered.shown, hdelivered.handed, h.shown]
  · unfold waiting
    show rx'.received = rx'.handed ++ (rx'.pendingRxByteChunks.flatMap chunkBytes ++ _)
    rw [hnone, hdelivered.received, hdelivered.handed, hreceived, List.append_assoc]
    rfl
  · unfold queue
    show Follows rx'.activeId (rx'.pendingRxByteChunks.map chunkEvent ++ events)
    rw [hnone, hdelivered.active]
    exact hfollows
  · unfold queue
    show (rx'.pendingRxByteChunks.map chunkEvent ++ events).foldl after rx'.activeId = expected
    rw [hnone, hdelivered.active]
    exact hexpects

/-- Events without bytes change at most the active connection, as foreseen. -/
theorem processTransportEvent_quiet (rx : LiveRx) (accepts : Nat) {event : TransportEvent}
    (h : ∀ bytes, event ≠ .bytes bytes) :
    let rx' := rx.processTransportEvent accepts event
    rx'.handed = rx.handed ∧ rx'.recorded = rx.recorded ∧ rx'.shown = rx.shown ∧
      rx'.received = rx.received ∧ rx'.pendingTransportEvents = rx.pendingTransportEvents ∧
      rx'.pendingRxByteChunks = rx.pendingRxByteChunks ∧
      rx'.activeId = after rx.activeId event := by
  cases event with
  | bytes event => exact absurd rfl (h event)
  | «open» context =>
    dsimp only [processTransportEvent, after]
    split <;> exact ⟨rfl, rfl, rfl, rfl, rfl, rfl, rfl⟩
  | close context reason =>
    dsimp only [processTransportEvent, after]
    unfold activeId
    split
    · exact ⟨rfl, rfl, rfl, rfl, rfl, rfl, rfl⟩
    · exact ⟨rfl, rfl, rfl, rfl, rfl, rfl, rfl⟩
  | error context message => exact ⟨rfl, rfl, rfl, rfl, rfl, rfl, rfl⟩
  | tx event => exact ⟨rfl, rfl, rfl, rfl, rfl, rfl, rfl⟩
  | write context bytes status => exact ⟨rfl, rfl, rfl, rfl, rfl, rfl, rfl⟩

/-- One round of the pump loses and doubles nothing. -/
theorem drainRound_conserves (rounds : PumpRounds) (maxRxBytes round : Nat) {drain : Drain}
    (h : Conserves expected drain.rx) :
    Conserves expected (drainRound rounds maxRxBytes round drain).1.rx := by
  unfold drainRound
  dsimp only
  by_cases hchunks : drain.rx.pendingRxByteChunks ≠ []
  · rw [if_pos hchunks]
    split
    · exact h
    · split <;> exact processPendingRxBytes_conserves _ _ h
  · rw [if_neg hchunks]
    rw [not_not] at hchunks
    split
    · exact h
    · rename_i event events hevents
      obtain ⟨hbelongs, hfollows, hexpects, hreceived⟩ := h.front hchunks hevents
      by_cases hempty : event.bytes.isEmpty = true
      · rw [if_pos hempty]
        refine h.consume hchunks (Delivered.none drain.rx) ?_ hfollows hexpects
        have hnone : eventBytes (.bytes event) = [] := List.isEmpty_iff.mp hempty
        rw [hnone] at hreceived
        exact hreceived
      · rw [if_neg hempty]
        have hne : event.bytes ≠ [] := fun hc => hempty (List.isEmpty_iff.mpr hc)
        by_cases hlive : (drain.rx.workerEnabled && event.context.readyForIo) = true
        · rw [if_pos hlive, foreign_of_belongs hbelongs hne, if_neg (by decide)]
          obtain ⟨hdelivered, hle, -⟩ := tryProcessLiveRxBytes_delivered
            (maxRxBytes - drain.processedRxBytes) (rounds.accepts round) hbelongs
          generalize drain.rx.tryProcessLiveRxBytes event (maxRxBytes - drain.processedRxBytes)
            (rounds.accepts round) = result at hdelivered hle ⊢
          split
          · rename_i hnone
            rw [hnone, List.take_zero] at hdelivered
            exact h.of_delivered_nil hdelivered
          · refine h.consume hchunks hdelivered ?_ ?_ ?_
            · rw [hreceived]
              split
              · rename_i hall
                rw [hall, List.take_length]
                rfl
              · rw [List.flatMap_cons, ← List.append_assoc (event.bytes.take result.2)]
                have hsplit : event.bytes.take result.2 ++
                    eventBytes (.bytes { event with bytes := event.bytes.drop result.2 }) =
                    event.bytes := List.take_append_drop ..
                rw [hsplit]
                rfl
            · split
              · exact hfollows
              · exact ⟨fun hready _ => hbelongs hready hne, hfollows⟩
            · split <;> exact hexpects
        · rw [if_neg hlive]
          refine ⟨h.recorded, h.shown, ?_, ?_, ?_⟩
          · unfold waiting
            show drain.rx.received = drain.rx.handed ++ ((drain.rx.pendingRxByteChunks ++ _).flatMap
              chunkBytes ++ events.flatMap eventBytes)
            rw [hchunks, hreceived]
            simp [chunkBytes, eventBytes]
          · unfold queue
            show Follows drain.rx.activeId ((drain.rx.pendingRxByteChunks ++ _).map chunkEvent ++
              events)
            rw [hchunks]
            exact ⟨hbelongs, hfollows⟩
          · unfold queue
            show ((drain.rx.pendingRxByteChunks ++ _).map chunkEvent ++ events).foldl after
              drain.rx.activeId = expected
            rw [hchunks]
            exact hexpects
    · rename_i event events hother hevents
      obtain ⟨-, hfollows, hexpects, hreceived⟩ := h.front hchunks hevents
      have hquiet : ∀ bytes, event ≠ .bytes bytes := fun bytes hc => hother bytes hc
      have hnone : eventBytes event = [] := by
        cases event with
        | bytes event => exact absurd rfl (hquiet event)
        | _ => rfl
      obtain ⟨hhanded, hrecorded, hshown, hrec, hpending, hkept, hactive⟩ :=
        processTransportEvent_quiet { drain.rx with pendingTransportEvents := events }
          (rounds.accepts round) hquiet
      refine ⟨?_, ?_, ?_, ?_, ?_⟩
      · rw [hrecorded, hhanded]
        exact h.recorded
      · rw [hshown, hhanded]
        exact h.shown
      · unfold waiting
        rw [hrec, hhanded, hkept, hpending]
        show drain.rx.received = drain.rx.handed ++ (drain.rx.pendingRxByteChunks.flatMap
          chunkBytes ++ events.flatMap eventBytes)
        rw [hchunks, hreceived, hnone]
        rfl
      · unfold queue
        rw [hactive, hkept, hpending]
        show Follows (after drain.rx.activeId event)
          (drain.rx.pendingRxByteChunks.map chunkEvent ++ events)
        rw [hchunks]
        exact hfollows
      · unfold queue
        rw [hactive, hkept, hpending]
        show (drain.rx.pendingRxByteChunks.map chunkEvent ++ events).foldl after
          (after drain.rx.activeId event) = expected
        rw [hchunks]
        exact hexpects

/-! ### The pump and the other steps -/

theorem drainLoop_conserves (rounds : PumpRounds) (maxRxBytes fuel : Nat) :
    ∀ (round : Nat) (drain : Drain), Conserves expected drain.rx →
      Conserves expected (drainLoop rounds maxRxBytes fuel round drain).rx := by
  induction fuel with
  | zero => exact fun round drain h => h
  | succ fuel ih =>
    intro round drain h
    rw [drainLoop]
    split
    · exact h
    · have hround := drainRound_conserves rounds maxRxBytes round h
      generalize drainRound rounds maxRxBytes round drain = result at hround ⊢
      obtain ⟨drain', goesOn⟩ := result
      cases goesOn with
      | false => exact hround
      | true => exact ih (round + 1) drain' hround

theorem pullTransportEvents_conserves (h : Conserves expected rx)
    (hevents : Follows expected events) :
    Conserves (events.foldl after expected) (rx.pullTransportEvents events) := by
  have hqueue : (rx.pullTransportEvents events).queue = rx.queue ++ events :=
    (List.append_assoc ..).symm
  have hactive : (rx.pullTransportEvents events).activeId = rx.activeId := rfl
  refine ⟨h.recorded, h.shown, ?_, ?_, ?_⟩
  · show rx.received ++ events.flatMap eventBytes = rx.handed ++
      (rx.pendingRxByteChunks.flatMap chunkBytes ++
        (rx.pendingTransportEvents ++ events).flatMap eventBytes)
    rw [h.received, List.flatMap_append]
    unfold waiting
    simp only [List.append_assoc]
  · rw [hqueue, hactive, follows_append, h.expects]
    exact ⟨h.follows, hevents⟩
  · rw [hqueue, hactive, List.foldl_append, h.expects]

theorem detachEvent_bytes (events : List TransportEvent) :
    (events.filterMap detachEvent).flatMap chunkBytes = events.flatMap eventBytes := by
  induction events with
  | nil => rfl
  | cons event events ih =>
    rw [List.flatMap_cons, ← ih]
    cases event with
    | bytes event =>
      by_cases hempty : event.bytes.isEmpty = true
      · have hnone : detachEvent (.bytes event) = none := if_pos hempty
        have hbytes : eventBytes (.bytes event) = [] := List.isEmpty_iff.mp hempty
        rw [List.filterMap_cons_none hnone, hbytes, List.nil_append]
      · have hsome : detachEvent (.bytes event) =
            some { context := detach event.context, bytes := event.bytes } := if_neg hempty
        rw [List.filterMap_cons_some hsome, List.flatMap_cons]
        rfl
    | _ => rfl

/-- Everything that waits is detached and kept. -/
theorem closeTransport_conserves (h : Conserves expected rx) :
    Conserves none rx.closeTransport := by
  have hdetached : ∀ event ∈ rx.closeTransport.queue,
      ∃ bytes, event = .bytes bytes ∧ bytes.context.readyForIo = false := by
    intro event hevent
    have hmem : event ∈ (rx.pendingRxByteChunks.map detachChunk ++
        rx.pendingTransportEvents.filterMap detachEvent).map chunkEvent := by
      have hqueue : event ∈ (rx.pendingRxByteChunks.map detachChunk ++
          rx.pendingTransportEvents.filterMap detachEvent).map chunkEvent ++ [] := hevent
      rwa [List.append_nil] at hqueue
    obtain ⟨pending, hpending, rfl⟩ := List.mem_map.mp hmem
    refine ⟨_, rfl, ?_⟩
    rcases List.mem_append.mp hpending with hchunk | hevent
    · obtain ⟨pending', -, rfl⟩ := List.mem_map.mp hchunk
      rfl
    · obtain ⟨event', -, hsome⟩ := List.mem_filterMap.mp hevent
      cases event' with
      | bytes bytes =>
        unfold detachEvent at hsome
        dsimp only at hsome
        split at hsome
        · cases hsome
        · obtain rfl := Option.some.inj hsome
          rfl
      | _ => cases hsome
  have hwaiting : rx.closeTransport.waiting = rx.waiting := by
    show (rx.pendingRxByteChunks.map detachChunk ++
      rx.pendingTransportEvents.filterMap detachEvent).flatMap chunkBytes ++ [] = _
    rw [List.append_nil, List.flatMap_append, detachEvent_bytes, List.flatMap_map]
    rfl
  have hactive : rx.closeTransport.activeId = none := rfl
  refine ⟨h.recorded, h.shown, ?_, follows_of_detached hdetached _, ?_⟩
  · rw [hwaiting]
    exact h.received
  · rw [hactive]
    refine foldl_after_bytes (fun event hevent => ?_) none
    obtain ⟨bytes, hbytes, -⟩ := hdetached event hevent
    exact ⟨bytes, hbytes⟩

/-- The bytes that arrive are those of the connection that is active once all before them is
processed, or detached; after a closing no connection is active. -/
def Fits : Option Nat → List LiveRxStep → Prop
  | _, [] => True
  | expected, .receive events :: steps =>
    Follows expected events ∧ Fits (events.foldl after expected) steps
  | _, .closeTransport :: steps => Fits none steps
  | expected, .pump .. :: steps => Fits expected steps
  | expected, .setWorkerEnabled _ :: steps => Fits expected steps

theorem run_conserves (steps : List LiveRxStep) :
    ∀ (expected : Option Nat) (rx : LiveRx), Conserves expected rx → Fits expected steps →
      ∃ expected', Conserves expected' (run rx steps) := by
  induction steps with
  | nil => exact fun expected rx h _ => ⟨expected, h⟩
  | cons step steps ih =>
    intro expected rx h hfits
    cases step with
    | receive events => exact ih _ _ (pullTransportEvents_conserves h hfits.1) hfits.2
    | pump rounds maxRxBytes => exact ih _ _ (drainLoop_conserves rounds maxRxBytes _ 0 _ h) hfits
    | closeTransport => exact ih _ _ (closeTransport_conserves h) hfits
    | setWorkerEnabled enabled =>
      exact ih expected _ ⟨h.recorded, h.shown, h.received, h.follows, h.expects⟩ hfits

/-- **Live bytes are neither lost nor doubled.**  Whatever the budgets of the pumps and
however few the worker accepts each time, what is handed to it, what is recorded and what is
shown are one sequence, a beginning of what arrived, and the two queues hold the rest. -/
theorem live_rx_conserves (workerEnabled : Bool) (active : Option ConnectionContext)
    (steps : List LiveRxStep) (hfits : Fits (active.map (·.connectionId)) steps) :
    let rx := run { workerEnabled := workerEnabled, activeConnection := active } steps
    rx.recorded = rx.handed ∧ rx.shown = rx.handed ∧ rx.received = rx.handed ++ rx.waiting := by
  intro rx
  obtain ⟨expected, h⟩ := run_conserves steps _
    { workerEnabled := workerEnabled, activeConnection := active }
    ⟨rfl, rfl, rfl, trivial, rfl⟩ hfits
  exact ⟨h.recorded, h.shown, h.received⟩

/-- Three bytes of the active connection; two are accepted, then the connection is closed and
the third is handed on detached. -/
theorem live_rx_conserves_three_bytes :
    let rx := run { workerEnabled := true, activeConnection := some { connectionId := 1 } }
      [.receive [.bytes { context := { connectionId := 1 }, bytes := [1, 2, 3] }],
        .pump { accepts := fun round => if round = 0 then 2 else 0 } 64, .closeTransport,
        .pump {} 64]
    rx.recorded = rx.handed ∧ rx.shown = rx.handed ∧ rx.received = rx.handed ++ rx.waiting :=
  live_rx_conserves true (some { connectionId := 1 })
    [.receive [.bytes { context := { connectionId := 1 }, bytes := [1, 2, 3] }],
      .pump { accepts := fun round => if round = 0 then 2 else 0 } 64, .closeTransport,
      .pump {} 64] ⟨⟨fun _ _ => rfl, trivial⟩, trivial⟩

example :
    let rx := run { workerEnabled := true, activeConnection := some { connectionId := 1 } }
      [.receive [.bytes { context := { connectionId := 1 }, bytes := [1, 2, 3] }],
        .pump { accepts := fun round => if round = 0 then 2 else 0 } 64]
    rx.handed = [1, 2] ∧ rx.waiting = [3] := by
  decide

end LiveRx

end ProtoScope.App
