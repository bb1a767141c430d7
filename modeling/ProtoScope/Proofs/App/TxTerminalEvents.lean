/-
Every request of a run is reported once.

The books of the scheduler balance over every run, apart from the retries the transport
made it announce.  So each accepted request has exactly one terminal event or is still
held, and each announced retry is still to come or was made, in every state of a run,
exactly if no step of it is a timeout reported by the transport for a guarded request with
attempts left.
-/
import Mathlib.Algebra.BigOperators.Group.Multiset.Basic
import Mathlib.Data.List.Induction
import Mathlib.Data.Multiset.OrderedMonoid
import ProtoScope.Proofs.App.TxBooks

namespace ProtoScope.App

open ProtoScope.Scripting ProtoScope.Transport
open ProtoScope.Library.RetryLedger

namespace TxScheduler

/-- The ids of the requests a step brings. -/
def TxStep.accepts : TxStep → Multiset Nat
  | .enqueue _ request => {request.id}
  | .scriptOutputs offline _ batch =>
    Multiset.ofList (if offline then [] else batch.txRequests.map (·.id))
  | _ => 0

/-- The ids of the requests a step loses. -/
def losesBy (s : TxScheduler) : TxStep → Multiset Nat
  | .transportEvent _ _ event => s.lostBy event
  | _ => 0

/-- **Every step is a sequence of moves**, and a write and an awaited request exclude each
other throughout. -/
theorem step_moves (accepted lost : Multiset Nat) (config : ProtocolTxConfig) {s : TxScheduler}
    (h : Exclusive s) (step : TxStep) :
    TxMoves (s.ledger accepted lost)
      ((s.step config step).ledger (step.accepts + accepted) (s.losesBy step + lost)) ∧
      Exclusive (s.step config step) := by
  cases step with
  | enqueue nowMs request =>
    refine ⟨?_, ?_⟩
    · unfold losesBy TxStep.accepts
      rw [Multiset.zero_add, Multiset.singleton_add]
      exact enqueueTxRequest_moves accepted lost config nowMs s request
    · have hslots := enqueueTxRequest_slots config nowMs s request
      unfold Exclusive
      rw [TxScheduler.step, hslots.1, hslots.2]
      exact h
  | transportEvent offline link event =>
    unfold TxStep.accepts
    rw [Multiset.zero_add]
    exact processTransportTxEvent_moves accepted lost offline link h event
  | scriptOutputs offline nowMs batch =>
    unfold losesBy
    rw [Multiset.zero_add]
    exact applyScriptTxOutputs_moves accepted lost config offline nowMs h batch
  | requestTimeouts offline link backlog currentMs =>
    unfold losesBy TxStep.accepts
    rw [Multiset.zero_add, Multiset.zero_add]
    exact processRequestTimeouts_moves accepted lost offline link backlog currentMs h
  | drive offline link =>
    unfold losesBy TxStep.accepts
    rw [Multiset.zero_add, Multiset.zero_add]
    exact driveTxScheduler_moves accepted lost offline link h
  | cancelAll reason nowMs =>
    unfold losesBy TxStep.accepts
    rw [Multiset.zero_add, Multiset.zero_add]
    exact cancelAllTxRequests_moves accepted lost reason nowMs s

/-- The ids of all requests enqueued in a run. -/
def acceptedIds (steps : List TxStep) : Multiset Nat :=
  (steps.map TxStep.accepts).sum

/-- What the scheduler owes for the requests it was given. -/
structure Conforms (accepted : Multiset Nat) (s : TxScheduler) : Prop where
  /-- An id accepted once has exactly one terminal event, or none while it is held. -/
  reportedOnce : ∀ id, accepted.count id =
    s.events.countP (fun event => event.isTerminal && decide (event.id = id)) +
      (s.held.map (·.id)).count id
  /-- A request said to be retried is held with its next attempt, until that attempt is
  itself reported. -/
  retried : ∀ event ∈ s.events, event.isRetrying = true →
    (∃ request ∈ s.held, request.id = event.id ∧ request.attempt = event.attempt + 1) ∨
      ∃ event' ∈ s.events, event'.id = event.id ∧ event'.attempt = event.attempt + 1

/-- The step is an event of the transport that announces a retry. -/
def LosesRetry (s : TxScheduler) : TxStep → Prop
  | .transportEvent _ _ event => s.losesRetry event = true
  | _ => False

theorem losesBy_eq_zero_iff {s : TxScheduler} {step : TxStep} :
    s.losesBy step = 0 ↔ ¬ s.LosesRetry step := by
  cases step with
  | transportEvent offline link event =>
    unfold losesBy lostBy LosesRetry
    split
    · simp_all
    · simp_all
  | _ => exact ⟨fun _ h => h, fun _ => rfl⟩

/-- **The books of a run**: they lead from nothing to the state reached, and nothing is
lost exactly if no step loses a retry. -/
theorem run_moves (config : ProtocolTxConfig) (steps : List TxStep) :
    Exclusive (run config steps) ∧ ∃ lost : Multiset Nat,
      TxMoves (({} : TxScheduler).ledger 0 0)
        ((run config steps).ledger (acceptedIds steps) lost) ∧
      (lost = 0 ↔ ∀ before step, before ++ [step] <+: steps →
        ¬ (run config before).LosesRetry step) := by
  induction steps using List.reverseRecOn with
  | nil =>
    refine ⟨.inl rfl, 0, .refl, ?_⟩
    simp
  | append_singleton steps step ih =>
    obtain ⟨hexclusive, lost, hmoves, hlost⟩ := ih
    obtain ⟨hstep, hexclusive'⟩ := step_moves (acceptedIds steps) lost config hexclusive step
    rw [run_concat]
    refine ⟨hexclusive', (run config steps).losesBy step + lost, ?_, ?_⟩
    · have haccepted : acceptedIds (steps ++ [step]) = step.accepts + acceptedIds steps := by
        unfold acceptedIds
        rw [List.map_append, List.sum_append, add_comm]
        simp
      rw [haccepted]
      exact hmoves.trans hstep
    · rw [add_eq_zero, losesBy_eq_zero_iff, hlost]
      constructor
      · intro ⟨hlast, hbefore⟩ before step' hreach
        rcases List.prefix_concat_iff.mp hreach with heq | hreach
        · obtain ⟨rfl, hsingle⟩ := List.append_inj' heq rfl
          cases hsingle
          exact hlast
        · exact hbefore before step' hreach
      · intro h
        refine ⟨h steps step (List.prefix_refl _), ?_⟩
        intro before step' hreach
        exact h before step' (hreach.trans (List.prefix_append steps [step]))

/-- With nothing lost the books say what the scheduler owes; what is lost is missing. -/
theorem conforms_iff {config : ProtocolTxConfig} {steps : List TxStep} {lost : Multiset Nat}
    (h : TxMoves (({} : TxScheduler).ledger 0 0)
      ((run config steps).ledger (acceptedIds steps) lost)) :
    Conforms (acceptedIds steps) (run config steps) ↔ lost = 0 := by
  have hbalanced : Balanced txReporting ((run config steps).ledger (acceptedIds steps) lost) :=
    Moves.balanced txReporting h (fun _ => rfl)
  constructor
  · intro hc
    rw [Multiset.eq_zero_iff_forall_notMem]
    intro id hid
    have hcount := hc.reportedOnce id
    have hid' : 0 < lost.count id := Multiset.count_pos.mpr hid
    have hid'' := hbalanced id
    unfold finals holds txReporting ledger at hid''
    dsimp only at hid''
    omega
  · intro hlost
    subst hlost
    have hhonoured : Honoured txReporting ((run config steps).ledger (acceptedIds steps) 0) :=
      Moves.honoured h rfl (fun _ he => absurd he List.not_mem_nil)
    exact ⟨hbalanced, hhonoured⟩

/-- **In every state of a run each accepted request has exactly one terminal event or is
still held, and each announced retry is made, exactly if no step of the run is a timeout
the transport reports for a guarded request with attempts left.** -/
theorem conforms_throughout_iff (config : ProtocolTxConfig) (steps : List TxStep) :
    (∀ reached, reached <+: steps → Conforms (acceptedIds reached) (run config reached)) ↔
      ∀ before step, before ++ [step] <+: steps → ¬ (run config before).LosesRetry step := by
  constructor
  · intro h before step hreach
    obtain ⟨-, lost, hmoves, hlost⟩ := run_moves config (before ++ [step])
    exact hlost.mp ((conforms_iff hmoves).mp (h _ hreach)) before step (List.prefix_refl _)
  · intro h reached hreached
    obtain ⟨-, lost, hmoves, hlost⟩ := run_moves config reached
    apply (conforms_iff hmoves).mpr
    apply hlost.mpr
    intro before step hreach
    exact h before step (hreach.trans hreached)

/-- A guarded request with two attempts is handed to the transport, which reports that
writing it took too long. -/
def writeTimeoutRun : List TxStep :=
  [.enqueue 0 { id := 1, kind := .request, guarded := true, maxAttempts := 2 },
    .drive false fun _ => {},
    .transportEvent false (fun _ => {}) { requestId := 1, kind := .request, state := .timeout }]

/-- **A retry that is announced and not made**: the request leaves the scheduler without a
terminal event. -/
theorem write_timeout_loses_request :
    ¬ Conforms (acceptedIds writeTimeoutRun) (run {} writeTimeoutRun) := by
  intro h
  have hcount := h.reportedOnce 1
  revert hcount
  decide

end TxScheduler

end ProtoScope.App
