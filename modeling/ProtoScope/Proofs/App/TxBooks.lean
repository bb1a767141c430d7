/-
Who reports a request, and who keeps it.

The scheduler's books: a request is held while it is in the queue or in one of the two
active slots, and reported by the events posted to the script.  Every operation is a
sequence of moves of these books.  There is one operation that can lose a request: a
timeout reported by the transport announces a retry of a guarded request with attempts
left, but only the local deadline puts the request back into the queue.
-/
import ProtoScope.App.TxScheduler
import ProtoScope.Library.RetryLedger

namespace ProtoScope.Scripting.TxEvent

/-- The event announces another attempt. -/
def isRetrying (event : TxEvent) : Bool := event.guardState == some "retrying"

/-- The event is the last one about its request: it neither announces a retry, nor tells
of a request that is sent and waits for its answer, nor of the guard's reset. -/
def isTerminal (event : TxEvent) : Bool :=
  !(event.state == .sent && event.kind == .request) && !event.isRetrying &&
    event.guardState != some "reset"

end ProtoScope.Scripting.TxEvent

namespace ProtoScope.App

open ProtoScope.Scripting ProtoScope.Transport
open ProtoScope.Library.RetryLedger

/-- Requests are told apart by their ids. -/
def txReporting : Reporting TxRequest TxEvent Nat where
  key := (·.id)
  attempt := (·.attempt)
  about := (·.id)
  attemptOf := (·.attempt)
  final := TxEvent.isTerminal
  retry := TxEvent.isRetrying

namespace TxScheduler

def txEvents (outputs : List TxOutput) : List TxEvent :=
  outputs.filterMap fun output =>
    match output with
    | .txEvent _ event => some event
    | _ => none

/-- The events posted to the script, oldest first. -/
def events (s : TxScheduler) : List TxEvent := txEvents s.outputs

def slot (active : Option ActiveTxRequest) : Multiset TxRequest :=
  Multiset.ofList (active.toList.map (·.request))

/-- The requests that wait in the queue or are active. -/
def held (s : TxScheduler) : Multiset TxRequest :=
  slot s.activeWrite_ + slot s.activeHalfDuplexRequest_ + Multiset.ofList s.pendingTxQueue_

def ledger (accepted lost : Multiset Nat) (s : TxScheduler) : Ledger TxRequest TxEvent Nat :=
  ⟨s.held, s.events, accepted, lost⟩

/-- A request is awaited only while none is being written. -/
def Exclusive (s : TxScheduler) : Prop :=
  s.activeWrite_ = none ∨ s.activeHalfDuplexRequest_ = none

/-! ### Reporting a request -/

section Finish

variable (s : TxScheduler) (request : TxRequest) (state : TxEventState) (error : Option String)
  (finishedAtMs : Nat)

/-- What `finishTxRequest` leaves alone. -/
theorem finishTxRequest_slots :
    (s.finishTxRequest request state error finishedAtMs).pendingTxQueue_ = s.pendingTxQueue_ ∧
    (s.finishTxRequest request state error finishedAtMs).activeWrite_ = s.activeWrite_ ∧
    (s.finishTxRequest request state error finishedAtMs).activeHalfDuplexRequest_ =
      s.activeHalfDuplexRequest_ := by
  unfold finishTxRequest
  cases error <;> dsimp only <;> split <;> split <;> exact ⟨rfl, rfl, rfl⟩

theorem finishTxRequest_events :
    (s.finishTxRequest request state error finishedAtMs).events =
      s.events ++ [finishEvent request state error finishedAtMs] := by
  unfold finishTxRequest events txEvents
  cases error <;> dsimp only <;> split <;> split <;> simp [put]

theorem finishTxRequest_ledger (accepted lost : Multiset Nat) :
    (s.finishTxRequest request state error finishedAtMs).ledger accepted lost =
      ⟨s.held, s.events ++ [finishEvent request state error finishedAtMs], accepted, lost⟩ := by
  obtain ⟨hqueue, hwrite, hhalf⟩ := finishTxRequest_slots s request state error finishedAtMs
  unfold ledger held
  rw [hqueue, hwrite, hhalf, finishTxRequest_events]

theorem finishEvent_reports :
    txReporting.Reports (finishEvent request state error finishedAtMs) request := ⟨rfl, rfl⟩

/-- A report announces a retry exactly of a guarded request that timed out with attempts
left. -/
theorem finishEvent_retrying :
    (finishEvent request state error finishedAtMs).isRetrying = true ↔
      request.guarded = true ∧ state = .timeout ∧ request.attempt < request.maxAttempts := by
  unfold TxEvent.isRetrying finishEvent guardStateForEvent
  rcases hg : request.guarded
  · simp
  · by_cases hretry : state = .timeout ∧ request.attempt < request.maxAttempts
    · simp [hretry]
    · rcases hfail : isGuardedTerminalFailure request state <;> simp [hretry]

theorem finishEvent_not_reset :
    (finishEvent request state error finishedAtMs).guardState ≠ some "reset" := by
  unfold finishEvent guardStateForEvent
  dsimp only
  split
  · simp
  · split
    · simp
    · split <;> simp

/-- Every other report is the last one about its request. -/
theorem finishEvent_terminal (hsent : ¬ (state = .sent ∧ request.kind = .request))
    (hretry : ¬ (request.guarded = true ∧ state = .timeout ∧
      request.attempt < request.maxAttempts)) :
    (finishEvent request state error finishedAtMs).isTerminal = true ∧
      (finishEvent request state error finishedAtMs).isRetrying = false := by
  have hr : (finishEvent request state error finishedAtMs).isRetrying = false := by
    rw [Bool.eq_false_iff]
    exact fun h => hretry ((finishEvent_retrying request state error finishedAtMs).mp h)
  have hreset := finishEvent_not_reset request state error finishedAtMs
  refine ⟨?_, hr⟩
  unfold TxEvent.isTerminal
  rw [hr, bne_iff_ne.mpr hreset]
  have hs : ((finishEvent request state error finishedAtMs).state == .sent &&
      (finishEvent request state error finishedAtMs).kind == .request) = false := by
    rw [Bool.eq_false_iff]
    intro h
    rw [Bool.and_eq_true, beq_iff_eq, beq_iff_eq] at h
    exact hsent h
  rw [hs]
  rfl

end Finish

/-! ### Every operation as moves of the books -/

section Moves

variable (accepted lost : Multiset Nat)

abbrev TxMoves := Library.RetryLedger.Moves txReporting

section

variable (s : TxScheduler) (request : TxRequest) (state : TxEventState) (error : Option String)
  (finishedAtMs : Nat)

/-- A request that has been taken out of the scheduler is reported. -/
theorem finishTxRequest_move (hsent : ¬ (state = .sent ∧ request.kind = .request))
    (hretry : ¬ (request.guarded = true ∧ state = .timeout ∧
      request.attempt < request.maxAttempts)) :
    TxMoves ⟨request ::ₘ s.held, s.events, accepted, lost⟩
      ((s.finishTxRequest request state error finishedAtMs).ledger accepted lost) := by
  rw [finishTxRequest_ledger]
  obtain ⟨hterminal, hr⟩ :=
    finishEvent_terminal request state error finishedAtMs hsent hretry
  exact .single (.finish _ _ _ _ request _ (finishEvent_reports request state error finishedAtMs)
    hterminal hr)

/-- Reporting as anything but sent or timed out is always final. -/
theorem finishTxRequest_move_of_ne (hsent : state ≠ .sent) (htimeout : state ≠ .timeout) :
    TxMoves ⟨request ::ₘ s.held, s.events, accepted, lost⟩
      ((s.finishTxRequest request state error finishedAtMs).ledger accepted lost) :=
  finishTxRequest_move accepted lost s request state error finishedAtMs (fun h => hsent h.1)
    (fun h => htimeout h.2.1)

end

@[simp] theorem slot_none : slot none = 0 := rfl

@[simp] theorem slot_some (active : ActiveTxRequest) : slot (some active) = {active.request} := rfl

theorem txEvents_append_other {outputs : List TxOutput} {output : TxOutput}
    (h : ∀ connection event, output ≠ .txEvent connection event) :
    txEvents (outputs ++ [output]) = txEvents outputs := by
  cases output with
  | txEvent connection event => exact absurd rfl (h connection event)
  | _ => simp [txEvents]

theorem txEvents_append_event {outputs : List TxOutput} {connection : ConnectionContext}
    {event : TxEvent} :
    txEvents (outputs ++ [.txEvent connection event]) = txEvents outputs ++ [event] := by
  simp [txEvents]

/-- Every turn of the scheduler's loop reports the request it takes, up to the one it
hands to the transport. -/
theorem driveLoop_moves (link : Nat → LinkAnswer) :
    ∀ (queue : List TxRequest) (turn : Nat) (s : TxScheduler), s.activeWrite_ = none →
      s.activeHalfDuplexRequest_ = none →
      TxMoves ⟨Multiset.ofList queue, s.events, accepted, lost⟩
        ((driveLoop link queue turn s).ledger accepted lost) ∧
      (driveLoop link queue turn s).activeHalfDuplexRequest_ = none := by
  intro queue
  induction queue with
  | nil =>
    intro turn s hwrite hhalf
    refine ⟨?_, hhalf⟩
    unfold driveLoop ledger held events
    dsimp only
    rw [hwrite, hhalf]
    exact .refl
  | cons request rest ih =>
    intro turn s hwrite hhalf
    have hheld : { s with pendingTxQueue_ := rest }.held = Multiset.ofList rest := by
      unfold held
      dsimp only
      rw [hwrite, hhalf]
      simp
    have hreject : ∀ error : String,
        TxMoves ⟨Multiset.ofList (request :: rest), s.events, accepted, lost⟩
          ((driveLoop link rest (turn + 1)
            ({ s with pendingTxQueue_ := rest }.finishTxRequest request .rejected (some error)
              (link turn).nowMs)).ledger accepted lost) ∧
        (driveLoop link rest (turn + 1)
          ({ s with pendingTxQueue_ := rest }.finishTxRequest request .rejected (some error)
            (link turn).nowMs)).activeHalfDuplexRequest_ = none := by
      intro error
      obtain ⟨-, hwrite', hhalf'⟩ := finishTxRequest_slots { s with pendingTxQueue_ := rest } request
        .rejected (some error) (link turn).nowMs
      have hfinish := finishTxRequest_move_of_ne accepted lost { s with pendingTxQueue_ := rest }
        request .rejected (some error) (link turn).nowMs (by decide) (by decide)
      obtain ⟨hmoves, hhalf''⟩ := ih (turn + 1) _ (hwrite'.trans hwrite) (hhalf'.trans hhalf)
      refine ⟨Relation.ReflTransGen.trans ?_ hmoves, hhalf''⟩
      rw [finishTxRequest_ledger] at hfinish
      rw [finishTxRequest_events]
      rw [hheld] at hfinish
      exact hfinish
    unfold driveLoop
    dsimp only
    split
    · exact hreject _
    · split
      · exact hreject _
      · split
        · exact hreject _
        · refine ⟨?_, hhalf⟩
          unfold ledger held events put
          dsimp only
          rw [hhalf, txEvents_append_other (by simp)]
          simp only [slot_some, slot_none, Multiset.add_zero, Multiset.singleton_add]
          exact .refl

variable {s : TxScheduler}

/-- Handing requests to the transport, or refusing them, keeps the books. -/
theorem driveTxScheduler_moves (offline : Bool) (link : Nat → LinkAnswer) (h : Exclusive s) :
    TxMoves (s.ledger accepted lost) ((s.driveTxScheduler offline link).ledger accepted lost) ∧
      Exclusive (s.driveTxScheduler offline link) := by
  unfold driveTxScheduler
  split
  · exact ⟨.refl, h⟩
  · rename_i hidle
    simp only [Bool.or_eq_true, not_or, Option.not_isSome_iff_eq_none] at hidle
    obtain ⟨⟨-, hwrite⟩, hhalf⟩ := hidle
    obtain ⟨hmoves, hhalf'⟩ := driveLoop_moves accepted lost link s.pendingTxQueue_ 0 s hwrite hhalf
    refine ⟨?_, .inr hhalf'⟩
    unfold ledger held at hmoves ⊢
    rw [hwrite, hhalf, slot_none, Multiset.add_zero, Multiset.zero_add]
    exact hmoves

section Held

variable {s : TxScheduler}

theorem held_of_write {active : ActiveTxRequest} (h : s.activeWrite_ = some active) :
    s.held = active.request ::ₘ { s with activeWrite_ := none }.held := by
  unfold held
  rw [h, slot_some, slot_none, Multiset.zero_add, Multiset.add_assoc, Multiset.singleton_add]

theorem held_of_halfDuplex {active : ActiveTxRequest}
    (h : s.activeHalfDuplexRequest_ = some active) :
    s.held = active.request ::ₘ { s with activeHalfDuplexRequest_ := none }.held := by
  unfold held
  rw [h, slot_some, slot_none, Multiset.add_zero, Multiset.add_comm _ {active.request},
    Multiset.add_assoc, Multiset.singleton_add]

theorem held_of_pending {request : TxRequest} {rest : List TxRequest}
    (h : s.pendingTxQueue_ = request :: rest) :
    s.held = request ::ₘ { s with pendingTxQueue_ := rest }.held := by
  unfold held
  rw [h, ← Multiset.cons_coe, Multiset.add_cons]

theorem held_push (request : TxRequest) : (s.pushPending request).held = request ::ₘ s.held := by
  unfold held pushPending
  dsimp only
  rw [← Multiset.coe_add, Multiset.coe_singleton, ← Multiset.add_assoc,
    Multiset.add_comm _ {request}, Multiset.singleton_add]

theorem held_pushFront (request : TxRequest) :
    (s.pushFrontPending request).held = request ::ₘ s.held :=
  held_of_pending (s := s.pushFrontPending request) rfl

theorem put_ledger (output : TxOutput) (h : ∀ connection event, output ≠ .txEvent connection event) :
    (s.put output).ledger accepted lost = s.ledger accepted lost := by
  unfold ledger events put
  rw [txEvents_append_other h]
  rfl

theorem put_held (output : TxOutput) : (s.put output).held = s.held := rfl

theorem put_events (output : TxOutput)
    (h : ∀ connection event, output ≠ .txEvent connection event) :
    (s.put output).events = s.events := txEvents_append_other h

/-- A request that was awaited is let go. -/
theorem releaseHalfDuplex_ledger {active : ActiveTxRequest}
    (h : s.activeHalfDuplexRequest_ = some active) :
    s.ledger accepted lost =
      ⟨active.request ::ₘ s.releaseHalfDuplex.held, s.releaseHalfDuplex.events, accepted, lost⟩ := by
  unfold ledger releaseHalfDuplex
  rw [put_held, put_events _ (by simp), held_of_halfDuplex h]
  rfl

end Held

theorem accept_move (s : TxScheduler) (request : TxRequest) :
    TxMoves (s.ledger accepted lost)
      ⟨request ::ₘ s.held, s.events, request.id ::ₘ accepted, lost⟩ :=
  .single (.accept _ _ _ _ request)

theorem pushPending_moves (s : TxScheduler) (request : TxRequest) :
    TxMoves (s.ledger accepted lost)
      ((s.pushPending request).ledger (request.id ::ₘ accepted) lost) := by
  unfold ledger
  rw [held_push]
  exact accept_move accepted lost s request

theorem overflowTxRequest_moves (config : ProtocolTxConfig) (nowMs : Nat) (s : TxScheduler)
    (request : TxRequest) :
    TxMoves (s.ledger accepted lost)
      ((overflowTxRequest config nowMs s request).ledger (request.id ::ₘ accepted) lost) := by
  unfold overflowTxRequest
  split
  · rename_i dropped rest _ hpending
    have hfinish := finishTxRequest_move_of_ne accepted lost { s with pendingTxQueue_ := rest }
      dropped .dropped (some overflowMessage) nowMs (by decide) (by decide)
    rw [← held_of_pending hpending] at hfinish
    rw [put_ledger _ _ _ (by simp)]
    exact Relation.ReflTransGen.trans hfinish (pushPending_moves accepted lost _ request)
  · dsimp only
    rw [put_ledger _ _ _ (by simp)]
    refine Relation.ReflTransGen.trans (accept_move accepted lost s request) ?_
    split
    · exact finishTxRequest_move_of_ne _ lost s request .dropped _ nowMs (by decide) (by decide)
    · exact finishTxRequest_move_of_ne _ lost s request .rejected _ nowMs (by decide) (by decide)

/-- **Every request that is enqueued is accepted**, to be queued or reported at once. -/
theorem enqueueTxRequest_moves (config : ProtocolTxConfig) (nowMs : Nat) (s : TxScheduler)
    (request : TxRequest) :
    TxMoves (s.ledger accepted lost)
      ((enqueueTxRequest config nowMs s request).ledger (request.id ::ₘ accepted) lost) := by
  have hid : request.id = (withDefaults config request).id := rfl
  rw [hid]
  unfold enqueueTxRequest
  dsimp only
  split
  · exact Relation.ReflTransGen.trans (accept_move accepted lost s _)
      (finishTxRequest_move_of_ne _ lost s _ .rejected _ nowMs (by decide) (by decide))
  · split
    · exact pushPending_moves accepted lost s _
    · exact overflowTxRequest_moves accepted lost config nowMs s _

/-- Neither queueing nor refusing a request touches the active ones. -/
theorem enqueueTxRequest_slots (config : ProtocolTxConfig) (nowMs : Nat) (s : TxScheduler)
    (request : TxRequest) :
    (enqueueTxRequest config nowMs s request).activeWrite_ = s.activeWrite_ ∧
      (enqueueTxRequest config nowMs s request).activeHalfDuplexRequest_ =
        s.activeHalfDuplexRequest_ := by
  unfold enqueueTxRequest overflowTxRequest
  dsimp only
  split
  · exact (finishTxRequest_slots s _ _ _ _).2
  · split
    · exact ⟨rfl, rfl⟩
    · split
      · rename_i dropped rest _ _
        exact (finishTxRequest_slots { s with pendingTxQueue_ := rest } dropped .dropped
          (some overflowMessage) nowMs).2
      · exact (finishTxRequest_slots s (withDefaults config request) _ (some overflowMessage) nowMs).2

theorem enqueueAll_moves (config : ProtocolTxConfig) (nowMs : Nat) :
    ∀ (requests : List TxRequest) (accepted : Multiset Nat) (s : TxScheduler), Exclusive s →
      TxMoves (s.ledger accepted lost)
        ((requests.foldl (enqueueTxRequest config nowMs) s).ledger
          (Multiset.ofList (requests.map (·.id)) + accepted) lost) ∧
      Exclusive (requests.foldl (enqueueTxRequest config nowMs) s) := by
  intro requests
  induction requests with
  | nil =>
    intro accepted s h
    rw [List.map_nil, Multiset.coe_nil, Multiset.zero_add]
    exact ⟨.refl, h⟩
  | cons request requests ih =>
    intro accepted s h
    have hslots := enqueueTxRequest_slots config nowMs s request
    have h' : Exclusive (enqueueTxRequest config nowMs s request) := by
      unfold Exclusive
      rw [hslots.1, hslots.2]
      exact h
    obtain ⟨hmoves, hexclusive⟩ := ih (request.id ::ₘ accepted) _ h'
    refine ⟨Relation.ReflTransGen.trans
      (enqueueTxRequest_moves accepted lost config nowMs s request) ?_, hexclusive⟩
    rw [List.map_cons, ← Multiset.cons_coe, Multiset.cons_add]
    rw [Multiset.add_cons] at hmoves
    exact hmoves

/-- The guard's reset is reported, but not about a request. -/
theorem resetAll_moves (nowMs : Nat) :
    ∀ (connections : List ConnectionContext) (s : TxScheduler), Exclusive s →
      TxMoves (s.ledger accepted lost)
        ((connections.foldl (resetRequestGuard nowMs) s).ledger accepted lost) ∧
      Exclusive (connections.foldl (resetRequestGuard nowMs) s) := by
  intro connections
  induction connections with
  | nil =>
    intro s h
    exact ⟨.refl, h⟩
  | cons connection connections ih =>
    intro s h
    obtain ⟨hmoves, hexclusive⟩ := ih (resetRequestGuard nowMs s connection) h
    refine ⟨Relation.ReflTransGen.head ?_ hmoves, hexclusive⟩
    unfold ledger events resetRequestGuard put
    dsimp only
    rw [txEvents_append_event]
    exact .note _ _ _ _ _ rfl rfl

/-- A result of the script ends the request that waits for it. -/
theorem applyRequestDone_moves :
    ∀ (results : List RequestDoneResult) (s : TxScheduler), Exclusive s →
      TxMoves (s.ledger accepted lost) ((applyRequestDone results s).ledger accepted lost) ∧
      Exclusive (applyRequestDone results s) := by
  intro results
  induction results with
  | nil =>
    intro s h
    exact ⟨.refl, h⟩
  | cons result results ih =>
    intro s h
    unfold applyRequestDone
    split
    · exact ih s h
    · rename_i active hhalf
      dsimp only
      generalize hs' : (if (result.ok && !result.message.isEmpty && _ == result.message) = true then
        _ else _ : TxScheduler) = s'
      have hsame : s'.held = s.releaseHalfDuplex.held ∧ s'.events = s.releaseHalfDuplex.events ∧
          s'.activeHalfDuplexRequest_ = none := by
        rw [← hs']
        split <;> exact ⟨rfl, rfl, rfl⟩
      have hfinish := finishTxRequest_move_of_ne accepted lost s' active.request
        (if result.ok then .completed else .failed)
        (if (!result.ok && !result.message.isEmpty) = true then some result.message else none)
        result.timestampMs (by split <;> decide) (by split <;> decide)
      rw [hsame.1, hsame.2.1, ← releaseHalfDuplex_ledger accepted lost hhalf] at hfinish
      refine ⟨hfinish, .inr ?_⟩
      rw [(finishTxRequest_slots s' _ _ _ _).2.2, hsame.2.2]

theorem applyScriptTxOutputs_moves (config : ProtocolTxConfig) (offline : Bool) (nowMs : Nat)
    (h : Exclusive s) (batch : ScriptTxBatch) :
    TxMoves (s.ledger accepted lost)
      ((s.applyScriptTxOutputs config offline nowMs batch).ledger
        (Multiset.ofList (if offline then [] else batch.txRequests.map (·.id)) + accepted) lost) ∧
      Exclusive (s.applyScriptTxOutputs config offline nowMs batch) := by
  unfold applyScriptTxOutputs
  cases offline
  · obtain ⟨hreset, hex₁⟩ := resetAll_moves accepted lost nowMs batch.requestGuardResets s h
    obtain ⟨henqueue, hex₂⟩ := enqueueAll_moves lost config nowMs batch.txRequests accepted _ hex₁
    obtain ⟨hdone, hex₃⟩ := applyRequestDone_moves
      (Multiset.ofList (batch.txRequests.map (·.id)) + accepted) lost batch.requestDoneResults _ hex₂
    exact ⟨Relation.ReflTransGen.trans hreset (Relation.ReflTransGen.trans henqueue hdone), hex₃⟩
  · rw [if_pos rfl, if_pos rfl, Multiset.coe_nil, Multiset.zero_add]
    exact ⟨.refl, h⟩

/-- Announcing a retry is not the last word on a request. -/
theorem finishEvent_not_terminal {request : TxRequest} (error : Option String) (finishedAtMs : Nat)
    (h : request.guarded = true ∧ request.attempt < request.maxAttempts) :
    (finishEvent request .timeout error finishedAtMs).isTerminal = false := by
  have hr := (finishEvent_retrying request .timeout error finishedAtMs).mpr ⟨h.1, rfl, h.2⟩
  unfold TxEvent.isTerminal
  rw [hr]
  simp

theorem finishTxRequest_retry_move (s : TxScheduler) {request : TxRequest} (error : Option String)
    (finishedAtMs : Nat) (h : request.guarded = true ∧ request.attempt < request.maxAttempts) :
    TxMoves ⟨request ::ₘ s.held, s.events, accepted, lost⟩
      (((s.finishTxRequest request .timeout error finishedAtMs).pushFrontPending
        { request with attempt := request.attempt + 1 }).ledger accepted lost) := by
  have hledger := finishTxRequest_ledger s request .timeout error finishedAtMs accepted lost
  unfold ledger at hledger ⊢
  rw [Ledger.mk.injEq] at hledger
  rw [held_pushFront, hledger.1]
  refine .single ?_
  change Move txReporting _ ⟨_, (s.finishTxRequest request .timeout error finishedAtMs).events, _, _⟩
  rw [hledger.2.1]
  exact .retry _ _ _ _ request _ _ (finishEvent_reports _ _ _ _)
    (finishEvent_not_terminal error finishedAtMs h) rfl rfl

/-- **The local deadline** reports the waiting request and, where it announces a retry,
puts the next attempt at the front of the queue. -/
theorem processRequestTimeouts_moves (offline : Bool) (link : Nat → LinkAnswer) (backlog : Bool)
    (currentMs : Nat) (h : Exclusive s) :
    TxMoves (s.ledger accepted lost)
      ((s.processRequestTimeouts offline link backlog currentMs).ledger accepted lost) ∧
      Exclusive (s.processRequestTimeouts offline link backlog currentMs) := by
  unfold processRequestTimeouts
  split
  · exact ⟨.refl, h⟩
  · rename_i active hhalf
    split
    · exact ⟨.refl, h⟩
    · dsimp only
      rw [releaseHalfDuplex_ledger accepted lost hhalf]
      have hslot : s.releaseHalfDuplex.activeHalfDuplexRequest_ = none := rfl
      generalize s.releaseHalfDuplex = s' at hslot ⊢
      have hslots := finishTxRequest_slots s' active.request .timeout
        (some requestDoneTimeoutMessage) currentMs
      split
      · rename_i hretry
        have hmove := finishTxRequest_retry_move accepted lost s' (some requestDoneTimeoutMessage)
          currentMs hretry
        obtain ⟨hdrive, hexclusive⟩ := driveTxScheduler_moves accepted lost offline link
          (s := (s'.finishTxRequest active.request .timeout (some requestDoneTimeoutMessage)
            currentMs).pushFrontPending { active.request with attempt := active.request.attempt + 1 })
          (.inr (hslots.2.2.trans hslot))
        exact ⟨Relation.ReflTransGen.trans hmove hdrive, hexclusive⟩
      · rename_i hretry
        have hfinish := finishTxRequest_move accepted lost s' active.request .timeout
          (some requestDoneTimeoutMessage) currentMs (by simp) (fun hc => hretry ⟨hc.1, hc.2.2⟩)
        obtain ⟨hdrive, hexclusive⟩ := driveTxScheduler_moves accepted lost offline link
          (s := s'.finishTxRequest active.request .timeout (some requestDoneTimeoutMessage) currentMs)
          (.inr (hslots.2.2.trans hslot))
        exact ⟨Relation.ReflTransGen.trans hfinish hdrive, hexclusive⟩

/-- The event of the transport announces a retry: it reports a timeout of the active write,
and that is a guarded request with attempts left. -/
def losesRetry (s : TxScheduler) (event : TransportTxEvent) : Bool :=
  match s.activeWrite_ with
  | none => false
  | some active =>
    active.request.id == event.requestId && event.state == .timeout && active.request.guarded &&
      decide (active.request.attempt < active.request.maxAttempts)

/-- The id of the request such an event loses. -/
def lostBy (s : TxScheduler) (event : TransportTxEvent) : Multiset Nat :=
  if s.losesRetry event then {event.requestId} else 0

/-- Announcing a retry of a request that is not put back loses it. -/
theorem finishTxRequest_lose (s : TxScheduler) {request : TxRequest} (error : Option String)
    (finishedAtMs : Nat) (h : request.guarded = true ∧ request.attempt < request.maxAttempts) :
    TxMoves ⟨request ::ₘ s.held, s.events, accepted, lost⟩
      ((s.finishTxRequest request .timeout error finishedAtMs).ledger accepted
        ({request.id} + lost)) := by
  rw [finishTxRequest_ledger, Multiset.singleton_add]
  exact .single (.lose _ _ _ _ request _ (finishEvent_not_terminal error finishedAtMs h))

theorem losesRetry_iff (event : TransportTxEvent) {active : ActiveTxRequest}
    (h : s.activeWrite_ = some active) :
    s.losesRetry event = true ↔ active.request.id = event.requestId ∧
      active.request.guarded = true ∧ toScriptTxState event.state = .timeout ∧
        active.request.attempt < active.request.maxAttempts := by
  have hstate : event.state = .timeout ↔ toScriptTxState event.state = .timeout := by
    cases event.state <;> simp [toScriptTxState]
  unfold losesRetry
  rw [h]
  simp only [Bool.and_eq_true, beq_iff_eq, decide_eq_true_eq, hstate]
  tauto

theorem lostBy_of_not {event : TransportTxEvent} (h : ¬ s.losesRetry event = true) :
    s.lostBy event + lost = lost := by
  rw [lostBy, if_neg h, Multiset.zero_add]

section

variable (offline : Bool) (link : Nat → LinkAnswer) {s : TxScheduler} {active : ActiveTxRequest}
  {event : TransportTxEvent} (hwrite : s.activeWrite_ = some active)
  (hid : active.request.id = event.requestId)

include hwrite hid

theorem processTransportTxEvent_sent
    (hsent : toScriptTxState event.state = .sent ∧ active.request.kind = .request) :
    s.processTransportTxEvent offline link event =
      s.awaitAnswer active event (if event.error.isEmpty then none else some event.error) := by
  unfold processTransportTxEvent
  rw [hwrite]
  dsimp only
  rw [if_neg (not_not.mpr hid), if_pos hsent]

theorem processTransportTxEvent_finish
    (hsent : ¬ (toScriptTxState event.state = .sent ∧ active.request.kind = .request)) :
    s.processTransportTxEvent offline link event =
      ({ s with activeWrite_ := none }.finishTxRequest active.request (toScriptTxState event.state)
        (if event.error.isEmpty then none else some event.error)
        event.finishedAtMs).driveTxScheduler offline link := by
  unfold processTransportTxEvent
  rw [hwrite]
  dsimp only
  rw [if_neg (not_not.mpr hid), if_neg hsent]

end

/-- A request that was sent is awaited, and its event is not the last one. -/
theorem awaitAnswer_moves {active : ActiveTxRequest} (hwrite : s.activeWrite_ = some active)
    (hhalf : s.activeHalfDuplexRequest_ = none) (hkind : active.request.kind = .request)
    (event : TransportTxEvent) (error : Option String) :
    TxMoves (s.ledger accepted lost) ((s.awaitAnswer active event error).ledger accepted lost) := by
  unfold ledger events awaitAnswer put held
  dsimp only
  rw [txEvents_append_event, txEvents_append_other (by simp), hwrite, hhalf, slot_none, slot_some,
    slot_some, Multiset.add_zero, Multiset.zero_add]
  refine .single (.note _ _ _ _ _ ?_ ?_)
  · simp [txReporting, TxEvent.isTerminal, sentEvent, hkind]
  · unfold txReporting TxEvent.isRetrying sentEvent guardStateForEvent isGuardedTerminalFailure
    cases active.request.guarded <;> simp

/-- **An event of the transport** ends the active write, or makes it the awaited request;
a retry it announces is lost. -/
theorem processTransportTxEvent_moves (offline : Bool) (link : Nat → LinkAnswer) (h : Exclusive s)
    (event : TransportTxEvent) :
    TxMoves (s.ledger accepted lost)
      ((s.processTransportTxEvent offline link event).ledger accepted (s.lostBy event + lost)) ∧
      Exclusive (s.processTransportTxEvent offline link event) := by
  rcases hwrite : s.activeWrite_ with _ | active
  · have hlost : ¬ s.losesRetry event = true := by
      simp [losesRetry, hwrite]
    rw [lostBy_of_not lost hlost]
    unfold processTransportTxEvent
    rw [hwrite]
    exact ⟨.refl, h⟩
  have hlost := losesRetry_iff event hwrite
  have hhalf : s.activeHalfDuplexRequest_ = none := by
    rcases h with h | h
    · rw [hwrite] at h
      cases h
    · exact h
  by_cases hid : active.request.id = event.requestId
  · by_cases hsent : toScriptTxState event.state = .sent ∧ active.request.kind = .request
    · have hne : ¬ s.losesRetry event = true := by
        rw [hlost, hsent.1]
        simp
      rw [lostBy_of_not lost hne, processTransportTxEvent_sent offline link hwrite hid hsent]
      exact ⟨awaitAnswer_moves accepted lost hwrite hhalf hsent.2 event _, .inl rfl⟩
    · rw [processTransportTxEvent_finish offline link hwrite hid hsent]
      generalize (if event.error.isEmpty then none else some event.error) = error
      have hslots := finishTxRequest_slots { s with activeWrite_ := none } active.request
        (toScriptTxState event.state) error event.finishedAtMs
      have hdrive := fun lost' => driveTxScheduler_moves accepted lost' offline link
        (s := { s with activeWrite_ := none }.finishTxRequest active.request
          (toScriptTxState event.state) error event.finishedAtMs) (.inr (hslots.2.2.trans hhalf))
      have hbefore : s.ledger accepted lost =
          ⟨active.request ::ₘ { s with activeWrite_ := none }.held, s.events, accepted, lost⟩ := by
        unfold ledger
        rw [held_of_write hwrite]
      refine ⟨Relation.ReflTransGen.trans ?_ (hdrive _).1, (hdrive lost).2⟩
      rw [hbefore]
      by_cases hretry : s.losesRetry event = true
      · obtain ⟨-, hguarded, htimeout, hattempt⟩ := hlost.mp hretry
        rw [lostBy, if_pos hretry, ← hid, htimeout]
        exact finishTxRequest_lose accepted lost { s with activeWrite_ := none } error _
          ⟨hguarded, hattempt⟩
      · rw [lostBy_of_not lost hretry]
        exact finishTxRequest_move accepted lost { s with activeWrite_ := none } active.request _ error
          _ hsent (fun hc => hretry (hlost.mpr ⟨hid, hc⟩))
  · have hne : ¬ s.losesRetry event = true := fun hc => hid (hlost.mp hc).1
    rw [lostBy_of_not lost hne]
    unfold processTransportTxEvent
    rw [hwrite]
    dsimp only
    rw [if_pos hid]
    exact ⟨.refl, h⟩

/-- Cancelling reports whatever is held. -/
theorem cancelPendingTxRequests_moves (reason : String) (finishedAtMs : Nat) :
    ∀ (queue : List TxRequest) (s : TxScheduler), s.activeWrite_ = none →
      s.activeHalfDuplexRequest_ = none →
      TxMoves ⟨Multiset.ofList queue, s.events, accepted, lost⟩
        ((cancelPendingTxRequests reason finishedAtMs queue s).ledger accepted lost) ∧
      (cancelPendingTxRequests reason finishedAtMs queue s).activeWrite_ = none := by
  intro queue
  induction queue with
  | nil =>
    intro s hwrite hhalf
    refine ⟨?_, hwrite⟩
    unfold cancelPendingTxRequests ledger held events
    dsimp only
    rw [hwrite, hhalf]
    exact .refl
  | cons request rest ih =>
    intro s hwrite hhalf
    obtain ⟨-, hwrite', hhalf'⟩ := finishTxRequest_slots { s with pendingTxQueue_ := rest } request
      .canceled (some reason) finishedAtMs
    have hfinish := finishTxRequest_move_of_ne accepted lost { s with pendingTxQueue_ := rest }
      request .canceled (some reason) finishedAtMs (by decide) (by decide)
    have hheld : { s with pendingTxQueue_ := rest }.held = Multiset.ofList rest := by
      unfold held
      dsimp only
      rw [hwrite, hhalf]
      simp
    obtain ⟨hmoves, hwrite''⟩ := ih _ (hwrite'.trans hwrite) (hhalf'.trans hhalf)
    refine ⟨Relation.ReflTransGen.trans ?_ hmoves, hwrite''⟩
    rw [finishTxRequest_ledger] at hfinish
    rw [finishTxRequest_events]
    rw [hheld] at hfinish
    exact hfinish

theorem cancelActiveWrite_moves (reason : String) (finishedAtMs : Nat) (s : TxScheduler) :
    TxMoves (s.ledger accepted lost)
      ((cancelActiveWrite reason finishedAtMs s).ledger accepted lost) ∧
      (cancelActiveWrite reason finishedAtMs s).activeWrite_ = none := by
  unfold cancelActiveWrite
  split
  · rename_i active hwrite
    refine ⟨?_, rfl⟩
    obtain ⟨hqueue, -, hhalf⟩ := finishTxRequest_slots s active.request .canceled (some reason)
      finishedAtMs
    have hevents := finishTxRequest_events s active.request .canceled (some reason) finishedAtMs
    have hfinish := finishTxRequest_move_of_ne accepted lost { s with activeWrite_ := none }
      active.request .canceled (some reason) finishedAtMs (by decide) (by decide)
    rw [finishTxRequest_ledger, ← held_of_write hwrite] at hfinish
    unfold held at hfinish
    unfold ledger held
    dsimp only
    rw [hqueue, hhalf]
    change TxMoves _ ⟨_, (s.finishTxRequest active.request .canceled (some reason)
      finishedAtMs).events, _, _⟩
    rw [hevents]
    exact hfinish
  · rename_i hwrite
    exact ⟨.refl, hwrite⟩

theorem cancelHalfDuplex_moves (reason : String) (finishedAtMs : Nat) (s : TxScheduler) :
    TxMoves (s.ledger accepted lost)
      ((cancelHalfDuplex reason finishedAtMs s).ledger accepted lost) ∧
      (cancelHalfDuplex reason finishedAtMs s).activeHalfDuplexRequest_ = none ∧
      (cancelHalfDuplex reason finishedAtMs s).activeWrite_ = s.activeWrite_ := by
  unfold cancelHalfDuplex
  split
  · rename_i active hhalf
    dsimp only
    obtain ⟨hqueue, hwrite, -⟩ := finishTxRequest_slots (s.put (.awaitingCompletion false))
      active.request .canceled (some reason) finishedAtMs
    refine ⟨?_, rfl, hwrite⟩
    have hevents := finishTxRequest_events (s.put (.awaitingCompletion false)) active.request
      .canceled (some reason) finishedAtMs
    rw [put_events _ (by simp)] at hevents
    have hfinish := finishTxRequest_move_of_ne accepted lost
      { s with activeHalfDuplexRequest_ := none } active.request .canceled (some reason)
      finishedAtMs (by decide) (by decide)
    rw [finishTxRequest_ledger, ← held_of_halfDuplex hhalf] at hfinish
    unfold held at hfinish
    unfold ledger held
    dsimp only
    rw [hqueue, hwrite]
    change TxMoves _ ⟨_, ((s.put (.awaitingCompletion false)).finishTxRequest active.request
      .canceled (some reason) finishedAtMs).events, _, _⟩
    rw [hevents]
    exact hfinish
  · rename_i hhalf
    exact ⟨.refl, hhalf, rfl⟩

theorem cancelAllTxRequests_moves (reason : String) (nowMs : Nat) (s : TxScheduler) :
    TxMoves (s.ledger accepted lost) ((s.cancelAllTxRequests reason nowMs).ledger accepted lost) ∧
      Exclusive (s.cancelAllTxRequests reason nowMs) := by
  unfold cancelAllTxRequests
  dsimp only
  obtain ⟨hmoves₁, hwrite⟩ := cancelActiveWrite_moves accepted lost reason nowMs s
  generalize cancelActiveWrite reason nowMs s = s₁ at hmoves₁ hwrite ⊢
  obtain ⟨hmoves₂, hhalf, hwrite₂⟩ := cancelHalfDuplex_moves accepted lost reason nowMs s₁
  generalize cancelHalfDuplex reason nowMs s₁ = s₂ at hmoves₂ hhalf hwrite₂ ⊢
  obtain ⟨hmoves₃, hwrite₃⟩ := cancelPendingTxRequests_moves accepted lost reason nowMs
    s₂.pendingTxQueue_ s₂ (hwrite₂.trans hwrite) hhalf
  refine ⟨Relation.ReflTransGen.trans hmoves₁ (Relation.ReflTransGen.trans hmoves₂ ?_), .inl hwrite₃⟩
  have hheld : s₂.ledger accepted lost =
      ⟨Multiset.ofList s₂.pendingTxQueue_, s₂.events, accepted, lost⟩ := by
    unfold ledger held
    rw [hwrite₂.trans hwrite, hhalf]
    simp
  rw [hheld]
  exact hmoves₃

end Moves

theorem run_concat (config : ProtocolTxConfig) (steps : List TxStep) (step : TxStep) :
    run config (steps ++ [step]) = (run config steps).step config step :=
  List.foldl_concat _ _ _ _

end TxScheduler

end ProtoScope.App
