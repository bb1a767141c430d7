/-
One request at a time.

The requests stand in a line: the active one, if there is one, and the queue behind it.  They
join it at its end, and what ends a request lets it leave.  The scheduler hands over the head
of the line, which stays at the head while it is written and awaited, and so does its next
attempt after a timeout.  That nobody is served between two attempts is then what the line
gives.

`Handing` records the state in which the loop of the scheduler hands a request to the
transport; the state it leaves is computed from that one.
-/
import Mathlib.Data.List.Induction
import ProtoScope.Library.ServiceLine
import ProtoScope.Proofs.App.TxBooks

namespace ProtoScope.App.TxScheduler

open ProtoScope.Scripting ProtoScope.Transport
open ProtoScope.Library

/-- The task for the transport. -/
def toTransportTxTask (request : TxRequest) : TransportTxTask where
  requestId := request.id
  kind := toTransportTxKind request.kind
  payload := request.payload
  timeoutMs := request.timeoutMs
  queuedAtMs := request.createdAtMs

/-- A request is handed to the transport: the state just before, with the request taken from
the queue. -/
structure Handing where
  before : TxScheduler
  request : TxRequest

def Handing.after (handing : Handing) : TxScheduler :=
  { handing.before.put (.task (toTransportTxTask handing.request)) with
    activeWrite_ := some { request := handing.request } }

/-- Where `driveLoop` hands a request over. -/
def driveHanding (link : Nat → LinkAnswer) : List TxRequest → Nat → TxScheduler → Option Handing
  | [], _, _ => none
  | request :: rest, turn, s =>
    let s := { s with pendingTxQueue_ := rest }
    if !(link turn).isOpen then
      driveHanding link rest (turn + 1)
        (s.finishTxRequest request .rejected (some "连接未打开") (link turn).nowMs)
    else if request.guarded && s.txRequestGuardHalted_ then
      driveHanding link rest (turn + 1)
        (s.finishTxRequest request .rejected (some guardHaltedMessage) (link turn).nowMs)
    else if !(link turn).accepts then
      driveHanding link rest (turn + 1)
        (s.finishTxRequest request .rejected (some "transport enqueueSend 失败") (link turn).nowMs)
    else some ⟨s, request⟩

/-- Where `driveTxScheduler` does. -/
def handing (offline : Bool) (link : Nat → LinkAnswer) (s : TxScheduler) : Option Handing :=
  if offline || s.activeWrite_.isSome || s.activeHalfDuplexRequest_.isSome then none
  else driveHanding link s.pendingTxQueue_ 0 s

/-- The state in which a step calls `driveTxScheduler`, if it does. -/
def drivenFrom (s : TxScheduler) : TxStep → Option (TxScheduler × Bool × (Nat → LinkAnswer))
  | .transportEvent offline link event =>
    match s.activeWrite_ with
    | none => none
    | some activeWrite =>
      if activeWrite.request.id ≠ event.requestId ∨
          (toScriptTxState event.state = .sent ∧ activeWrite.request.kind = .request) then none
      else
        some ({ s with activeWrite_ := none }.finishTxRequest activeWrite.request
          (toScriptTxState event.state) (if event.error.isEmpty then none else some event.error)
          event.finishedAtMs, offline, link)
  | .requestTimeouts offline link backlog currentMs =>
    match s.activeHalfDuplexRequest_ with
    | none => none
    | some active =>
      if currentMs < active.waitDeadlineMs || backlog then none
      else
        let s := s.releaseHalfDuplex.finishTxRequest active.request .timeout
          (some requestDoneTimeoutMessage) currentMs
        some (if active.request.guarded ∧ active.request.attempt < active.request.maxAttempts then
            s.pushFrontPending { active.request with attempt := active.request.attempt + 1 }
          else s, offline, link)
  | .drive offline link => some (s, offline, link)
  | .enqueue _ _ | .scriptOutputs _ _ _ | .cancelAll _ _ => none

/-- Where a step hands a request over. -/
def stepHanding (s : TxScheduler) (step : TxStep) : Option Handing :=
  (s.drivenFrom step).bind fun driven => driven.1.handing driven.2.1 driven.2.2

def handingsFrom (config : ProtocolTxConfig) : TxScheduler → List TxStep → List Handing
  | _, [] => []
  | s, step :: steps => (s.stepHanding step).toList ++ handingsFrom config (s.step config step) steps

/-- All handings of a run. -/
def handings (config : ProtocolTxConfig) (steps : List TxStep) : List Handing :=
  handingsFrom config {} steps

def txTasks (outputs : List TxOutput) : List TransportTxTask :=
  outputs.filterMap fun output =>
    match output with
    | .task task => some task
    | _ => none

/-- The tasks the transport was handed. -/
def tasks (s : TxScheduler) : List TransportTxTask := txTasks s.outputs

/-- The ids of the requests a step brings. -/
def stepIds : TxStep → List Nat
  | .enqueue _ request => [request.id]
  | .scriptOutputs offline _ batch => if offline then [] else batch.txRequests.map (·.id)
  | .transportEvent _ _ _ | .requestTimeouts _ _ _ _ | .drive _ _ | .cancelAll _ _ => []

/-- The script resets the guard. -/
def resetsGuard : TxStep → Prop
  | .scriptOutputs offline _ batch => offline = false ∧ batch.requestGuardResets ≠ []
  | .enqueue _ _ | .transportEvent _ _ _ | .requestTimeouts _ _ _ _ | .drive _ _
  | .cancelAll _ _ => False

/-- The ids of the line: the active request and the queue. -/
def line (s : TxScheduler) : List Nat :=
  (s.activeWrite_.toList ++ s.activeHalfDuplexRequest_.toList).map (·.request.id) ++
    s.pendingTxQueue_.map (·.id)

/-! ### What ends or brings requests -/

/-- From one state to another nobody is handed over; others may leave the line, and `ids` may
join it. -/
structure Passes (resets : Prop) (ids : List Nat) (s t : TxScheduler) : Prop where
  line : t.line.Sublist (s.line ++ ids)
  tasks : t.tasks = s.tasks
  halted : ¬ resets → s.txRequestGuardHalted_ = true → t.txRequestGuardHalted_ = true

theorem Passes.refl (resets : Prop) (s : TxScheduler) : Passes resets [] s s :=
  ⟨by rw [List.append_nil], rfl, fun _ h => h⟩

variable {resets : Prop} {s t : TxScheduler} {active : ActiveTxRequest}

theorem Passes.trans {ids ids' : List Nat} {u : TxScheduler} (h : Passes resets ids s t)
    (h' : Passes resets ids' t u) : Passes resets (ids ++ ids') s u where
  line := by
    rw [← List.append_assoc]
    exact h'.line.trans (h.line.append_right ids')
  tasks := h'.tasks.trans h.tasks
  halted := fun hresets hhalted => h'.halted hresets (h.halted hresets hhalted)

theorem Passes.quiet {u : TxScheduler} (h : Passes resets [] s t) (h' : Passes resets [] t u) :
    Passes resets [] s u := h.trans h'

theorem txTasks_append (outputs more : List TxOutput) :
    txTasks (outputs ++ more) = txTasks outputs ++ txTasks more := List.filterMap_append

/-- The same line, with outputs that hand over nothing. -/
theorem Passes.of_outputs {more : List TxOutput} (hwrite : t.activeWrite_ = s.activeWrite_)
    (hhalf : t.activeHalfDuplexRequest_ = s.activeHalfDuplexRequest_)
    (hqueue : t.pendingTxQueue_ = s.pendingTxQueue_) (houtputs : t.outputs = s.outputs ++ more)
    (hmore : txTasks more = [])
    (hhalted : ¬ resets → s.txRequestGuardHalted_ = true → t.txRequestGuardHalted_ = true) :
    Passes resets [] s t where
  line := by
    unfold TxScheduler.line
    rw [hwrite, hhalf, hqueue, List.append_nil]
  tasks := by
    unfold TxScheduler.tasks
    rw [houtputs, txTasks_append, hmore, List.append_nil]
  halted := hhalted

theorem finishTxRequest_outputs (s : TxScheduler) (request : TxRequest) (state : TxEventState)
    (error : Option String) (finishedAtMs : Nat) :
    ∃ more, (s.finishTxRequest request state error finishedAtMs).outputs = s.outputs ++ more ∧
      txTasks more = [] := by
  unfold finishTxRequest
  cases error <;> dsimp only <;> split <;> split <;>
    first
    | exact ⟨_, List.append_assoc _ _ _, rfl⟩
    | exact ⟨_, rfl, rfl⟩

theorem finishTxRequest_halted (s : TxScheduler) (request : TxRequest) (state : TxEventState)
    (error : Option String) (finishedAtMs : Nat) (h : s.txRequestGuardHalted_ = true) :
    (s.finishTxRequest request state error finishedAtMs).txRequestGuardHalted_ = true := by
  unfold finishTxRequest
  cases error <;> dsimp only <;> split <;> split <;> first | rfl | exact h

/-- Reporting a request leaves the line alone. -/
theorem finishTxRequest_passes (resets : Prop) (s : TxScheduler) (request : TxRequest)
    (state : TxEventState) (error : Option String) (finishedAtMs : Nat) :
    Passes resets [] s (s.finishTxRequest request state error finishedAtMs) := by
  obtain ⟨hqueue, hwrite, hhalf⟩ := finishTxRequest_slots s request state error finishedAtMs
  obtain ⟨more, houtputs, hmore⟩ := finishTxRequest_outputs s request state error finishedAtMs
  exact .of_outputs hwrite hhalf hqueue houtputs hmore
    fun _ => finishTxRequest_halted s request state error finishedAtMs

/-- Somebody leaves the line without a word. -/
theorem Passes.of_line (hline : t.line.Sublist s.line) (houtputs : t.outputs = s.outputs)
    (hhalted : t.txRequestGuardHalted_ = s.txRequestGuardHalted_) :
    Passes resets [] s t where
  line := by
    rw [List.append_nil]
    exact hline
  tasks := congrArg txTasks houtputs
  halted := by
    rw [hhalted]
    exact fun _ => id

theorem dropPending_passes (resets : Prop) (s : TxScheduler) {queue : List TxRequest}
    (h : queue.Sublist s.pendingTxQueue_) : Passes resets [] s { s with pendingTxQueue_ := queue } :=
  .of_line ((h.map _).append_left _) rfl rfl

theorem put_passes (resets : Prop) (s : TxScheduler) (output : TxOutput)
    (h : txTasks [output] = []) : Passes resets [] s (s.put output) := .of_outputs rfl rfl rfl rfl h fun _ => id

theorem line_congr (hwrite : t.activeWrite_ = s.activeWrite_)
    (hhalf : t.activeHalfDuplexRequest_ = s.activeHalfDuplexRequest_)
    (hqueue : t.pendingTxQueue_ = s.pendingTxQueue_) : t.line = s.line := by
  unfold TxScheduler.line
  rw [hwrite, hhalf, hqueue]

theorem finishTxRequest_line (s : TxScheduler) (request : TxRequest) (state : TxEventState)
    (error : Option String) (finishedAtMs : Nat) :
    (s.finishTxRequest request state error finishedAtMs).line = s.line := by
  obtain ⟨hqueue, hwrite, hhalf⟩ := finishTxRequest_slots s request state error finishedAtMs
  exact line_congr hwrite hhalf hqueue

theorem pushPending_line (s : TxScheduler) (request : TxRequest) :
    (s.pushPending request).line = s.line ++ [request.id] := by
  unfold TxScheduler.line pushPending
  rw [List.append_assoc, ← List.map_singleton, ← List.map_append]

theorem releaseHalfDuplex_passes (resets : Prop) (s : TxScheduler) :
    Passes resets [] s s.releaseHalfDuplex := by
  let released : TxScheduler := { s with activeHalfDuplexRequest_ := none }
  have hline : released.line.Sublist s.line := by
    unfold TxScheduler.line
    rw [Option.toList_none, List.append_nil]
    exact ((List.sublist_append_left _ _).map _).append_right _
  have hrelease : Passes resets [] s released := .of_line hline rfl rfl
  exact hrelease.trans (put_passes resets released (.awaitingCompletion false) rfl)

/-! ### Enqueueing -/

theorem pushPending_passes (resets : Prop) (s : TxScheduler) (request : TxRequest) :
    Passes resets [request.id] s (s.pushPending request) where
  line := by rw [pushPending_line]
  tasks := rfl
  halted := fun _ => id

/-- Nobody joins. -/
theorem Passes.weaken (h : Passes resets [] s t) (ids : List Nat) : Passes resets ids s t where
  line := by
    have hline := h.line
    rw [List.append_nil] at hline
    exact hline.trans (List.sublist_append_left _ _)
  tasks := h.tasks
  halted := h.halted

/-- A full queue gives a place away or takes nobody. -/
theorem overflowTxRequest_passes (resets : Prop) (config : ProtocolTxConfig) (nowMs : Nat)
    (s : TxScheduler) (request : TxRequest) :
    Passes resets [request.id] s (overflowTxRequest config nowMs s request) ∧
      (overflowTxRequest config nowMs s request).line.length ≤ s.line.length := by
  unfold overflowTxRequest
  split
  · rename_i dropped rest _ hpending
    dsimp only
    let taken : TxScheduler := { s with pendingTxQueue_ := rest }
    have hdrop : Passes resets [] s taken :=
      dropPending_passes resets s (by rw [hpending]; exact List.sublist_cons_self _ _)
    have hfinish := finishTxRequest_passes resets taken dropped .dropped (some overflowMessage) nowMs
    have hline := finishTxRequest_line taken dropped .dropped (some overflowMessage) nowMs
    have hpush := pushPending_passes resets
      (taken.finishTxRequest dropped .dropped (some overflowMessage) nowMs) request
    have hpushed := pushPending_line
      (taken.finishTxRequest dropped .dropped (some overflowMessage) nowMs) request
    refine ⟨((hdrop.trans hfinish).trans hpush).trans
      (put_passes resets _ (.overflow overflowMessage) rfl), ?_⟩
    show ((taken.finishTxRequest dropped .dropped (some overflowMessage) nowMs).pushPending
      request).line.length ≤ s.line.length
    have hlength : taken.line.length + 1 = s.line.length := by
      unfold TxScheduler.line
      rw [hpending, List.length_append, List.length_append, List.map_cons, List.length_cons]
      rfl
    rw [hpushed, hline, List.length_append, List.length_singleton, hlength]
  · dsimp only
    generalize (if (config.overflowPolicy == "drop_newest") = true then TxEventState.dropped
      else TxEventState.rejected) = state
    have hfinish := finishTxRequest_passes resets s request state (some overflowMessage) nowMs
    have hline := finishTxRequest_line s request state (some overflowMessage) nowMs
    refine ⟨(hfinish.trans (put_passes resets _ (.overflow overflowMessage) rfl)).weaken _, ?_⟩
    show (s.finishTxRequest request state (some overflowMessage) nowMs).line.length ≤ s.line.length
    rw [hline]

theorem enqueueTxRequest_passes (resets : Prop) (config : ProtocolTxConfig) (nowMs : Nat)
    (s : TxScheduler) (request : TxRequest) :
    Passes resets [request.id] s (enqueueTxRequest config nowMs s request) ∧
      (s.line.length ≤ config.maxPending →
        (enqueueTxRequest config nowMs s request).line.length ≤ config.maxPending) := by
  unfold enqueueTxRequest
  dsimp only
  split
  · refine ⟨(finishTxRequest_passes resets s _ _ _ _).weaken _, ?_⟩
    rw [finishTxRequest_line]
    exact id
  split
  · rename_i hcount
    refine ⟨pushPending_passes resets s (withDefaults config request), fun _ => ?_⟩
    rw [pushPending_line, List.length_append, List.length_singleton]
    unfold TxScheduler.line
    simp only [List.length_append, List.length_map]
    omega
  · obtain ⟨hpasses, hlength⟩ := overflowTxRequest_passes resets config nowMs s
      (withDefaults config request)
    exact ⟨hpasses, fun hbound => hlength.trans hbound⟩

theorem enqueueAll_passes (resets : Prop) (config : ProtocolTxConfig) (nowMs : Nat)
    (requests : List TxRequest) (s : TxScheduler) :
    Passes resets (requests.map (·.id)) s (requests.foldl (enqueueTxRequest config nowMs) s) ∧
      (s.line.length ≤ config.maxPending →
        (requests.foldl (enqueueTxRequest config nowMs) s).line.length ≤ config.maxPending) := by
  induction requests generalizing s with
  | nil => exact ⟨.refl resets s, id⟩
  | cons request requests ih =>
    obtain ⟨hfirst, hbound⟩ := enqueueTxRequest_passes resets config nowMs s request
    obtain ⟨hrest, hbounds⟩ := ih (enqueueTxRequest config nowMs s request)
    exact ⟨hfirst.trans hrest, fun h => hbounds (hbound h)⟩

/-! ### Script outputs -/

theorem resetAll_passes (nowMs : Nat) (connections : List ConnectionContext) (s : TxScheduler) :
    Passes (connections ≠ []) [] s (connections.foldl (resetRequestGuard nowMs) s) := by
  have hreset : ∀ (connections : List ConnectionContext) (s : TxScheduler),
      Passes True [] s (connections.foldl (resetRequestGuard nowMs) s) := by
    intro connections
    induction connections with
    | nil => exact Passes.refl True
    | cons connection connections ih =>
      intro s
      have hfirst : Passes True [] s (resetRequestGuard nowMs s connection) :=
        .of_outputs rfl rfl rfl rfl rfl fun hresets => absurd trivial hresets
      exact hfirst.trans (ih _)
  refine ⟨(hreset connections s).line, (hreset connections s).tasks, fun hnone => ?_⟩
  rw [not_not.mp hnone]
  exact id

theorem applyRequestDone_passes (resets : Prop) (results : List RequestDoneResult) (s : TxScheduler) :
    Passes resets [] s (applyRequestDone results s) := by
  induction results generalizing s with
  | nil => exact .refl resets s
  | cons result results ih =>
    unfold applyRequestDone
    split
    · exact ih s
    · rename_i active hhalf
      dsimp only
      refine (releaseHalfDuplex_passes resets s).quiet
        (Passes.quiet ?_ (finishTxRequest_passes resets _ _ _ _ _))
      split
      · exact .of_outputs rfl rfl rfl (List.append_nil _).symm rfl fun _ => id
      · exact .refl resets _

theorem applyScriptTxOutputs_passes (config : ProtocolTxConfig) (offline : Bool) (nowMs : Nat)
    (s : TxScheduler) (batch : ScriptTxBatch) :
    Passes (offline = false ∧ batch.requestGuardResets ≠ [])
        (if offline then [] else batch.txRequests.map (·.id)) s
        (s.applyScriptTxOutputs config offline nowMs batch) ∧
      (s.line.length ≤ config.maxPending →
        (s.applyScriptTxOutputs config offline nowMs batch).line.length ≤ config.maxPending) := by
  unfold applyScriptTxOutputs
  cases offline with
  | true => exact ⟨.refl _ s, id⟩
  | false =>
    dsimp only
    have hreset := resetAll_passes nowMs batch.requestGuardResets s
    have hresets : Passes (false = false ∧ batch.requestGuardResets ≠ []) [] s
        (batch.requestGuardResets.foldl (resetRequestGuard nowMs) s) :=
      ⟨hreset.line, hreset.tasks, fun hnot => hreset.halted fun hne => hnot ⟨rfl, hne⟩⟩
    obtain ⟨henqueue, hbound⟩ := enqueueAll_passes (false = false ∧ batch.requestGuardResets ≠ [])
      config nowMs batch.txRequests (batch.requestGuardResets.foldl (resetRequestGuard nowMs) s)
    have hdone := applyRequestDone_passes (false = false ∧ batch.requestGuardResets ≠ [])
      batch.requestDoneResults (batch.txRequests.foldl (enqueueTxRequest config nowMs)
        (batch.requestGuardResets.foldl (resetRequestGuard nowMs) s))
    have hall := (hresets.trans henqueue).trans hdone
    rw [List.nil_append, List.append_nil] at hall
    refine ⟨hall, fun hle => ?_⟩
    have hline := hdone.line.length_le
    rw [List.append_nil] at hline
    have hfirst := hresets.line.length_le
    rw [List.append_nil] at hfirst
    exact hline.trans (hbound (hfirst.trans hle))

/-! ### Cancelling -/

theorem cancelPendingTxRequests_passes (resets : Prop) (reason : String) (finishedAtMs : Nat)
    (queue : List TxRequest) (h : queue.Sublist s.pendingTxQueue_) :
    Passes resets [] s (cancelPendingTxRequests reason finishedAtMs queue s) := by
  induction queue generalizing s with
  | nil => exact dropPending_passes resets s (List.nil_sublist _)
  | cons request rest ih =>
    let taken : TxScheduler := { s with pendingTxQueue_ := rest }
    have htake : Passes resets [] s taken :=
      dropPending_passes resets s ((List.sublist_cons_self request rest).trans h)
    have hfinish := finishTxRequest_passes resets taken request .canceled (some reason) finishedAtMs
    have hqueue := (finishTxRequest_slots taken request .canceled (some reason) finishedAtMs).1
    have hrest : rest.Sublist
        (taken.finishTxRequest request .canceled (some reason) finishedAtMs).pendingTxQueue_ := by
      rw [hqueue]
    exact (htake.quiet hfinish).quiet (ih hrest)

theorem clearWrite_passes (resets : Prop) (s : TxScheduler) :
    Passes resets [] s { s with activeWrite_ := none } := by
  refine .of_line ?_ rfl rfl
  unfold TxScheduler.line
  rw [Option.toList_none, List.nil_append]
  exact ((List.sublist_append_right _ _).map _).append_right _

theorem clearHalfDuplex_passes (resets : Prop) (s : TxScheduler) :
    Passes resets [] s { s with activeHalfDuplexRequest_ := none } := by
  refine .of_line ?_ rfl rfl
  unfold TxScheduler.line
  rw [Option.toList_none, List.append_nil]
  exact ((List.sublist_append_left _ _).map _).append_right _

theorem cancelAllTxRequests_passes (resets : Prop) (s : TxScheduler) (reason : String) (nowMs : Nat) :
    Passes resets [] s (s.cancelAllTxRequests reason nowMs) := by
  have hwrite : ∀ s, Passes resets [] s (cancelActiveWrite reason nowMs s) := by
    intro s
    unfold cancelActiveWrite
    split
    · exact (finishTxRequest_passes resets s _ _ _ _).quiet (clearWrite_passes resets _)
    · exact .refl resets s
  have hhalf : ∀ s, Passes resets [] s (cancelHalfDuplex reason nowMs s) := by
    intro s
    unfold cancelHalfDuplex
    split
    · exact ((put_passes resets s (.awaitingCompletion false) rfl).quiet
        (finishTxRequest_passes resets _ _ _ _ _)).quiet (clearHalfDuplex_passes resets _)
    · exact .refl resets s
  exact ((hwrite s).quiet (hhalf _)).quiet
    (cancelPendingTxRequests_passes resets reason nowMs _ (List.Sublist.refl _))

/-! ### Handing over -/

/-- What is so when a request is handed over: no other is active, and the guard lets it pass. -/
structure Handing.Free (handing : Handing) : Prop where
  write : handing.before.activeWrite_ = none
  halfDuplex : handing.before.activeHalfDuplexRequest_ = none
  guard : handing.request.guarded = true → handing.before.txRequestGuardHalted_ = false

/-- The line with the request at its head. -/
def Handing.line (handing : Handing) : List Nat :=
  handing.request.id :: handing.before.pendingTxQueue_.map (·.id)

theorem Handing.Free.after_line {handing : Handing} (h : handing.Free) :
    handing.after.line = handing.line := by
  unfold TxScheduler.line Handing.after Handing.line put
  dsimp only
  rw [h.halfDuplex]
  rfl

theorem Handing.after_tasks (handing : Handing) :
    handing.after.tasks = handing.before.tasks ++ [toTransportTxTask handing.request] :=
  txTasks_append _ _

/-- A turn of the scheduler: nobody is handed over, or the first that is not refused. -/
structure Hands (resets : Prop) (s : TxScheduler) (handing : Option Handing) (t : TxScheduler) :
    Prop where
  nobody : handing = none → Passes resets [] s t
  somebody : ∀ h ∈ handing, t = h.after ∧ h.Free ∧ h.before.tasks = s.tasks ∧
    (¬ resets → s.txRequestGuardHalted_ = true → h.before.txRequestGuardHalted_ = true) ∧
    h.line <:+ s.line

/-- The requests ahead of those left are refused. -/
theorem Hands.after_refusal {u : TxScheduler} {handing : Option Handing}
    (hpasses : Passes resets [] s t) (hline : t.line <:+ s.line) (h : Hands resets t handing u) :
    Hands resets s handing u where
  nobody := fun hnone => hpasses.quiet (h.nobody hnone)
  somebody := by
    intro handed hhanded
    obtain ⟨hafter, hfree, htasks, hhalted, hsuffix⟩ := h.somebody handed hhanded
    exact ⟨hafter, hfree, htasks.trans hpasses.tasks,
      fun hresets hs => hhalted hresets (hpasses.halted hresets hs), hsuffix.trans hline⟩

theorem driveLoop_hands (resets : Prop) (link : Nat → LinkAnswer) (queue : List TxRequest)
    (turn : Nat) (hwrite : s.activeWrite_ = none) (hhalf : s.activeHalfDuplexRequest_ = none)
    (hqueue : s.pendingTxQueue_ = queue) :
    Hands resets s (driveHanding link queue turn s) (driveLoop link queue turn s) := by
  induction queue generalizing turn s with
  | nil =>
    refine ⟨fun _ => dropPending_passes resets s (List.nil_sublist _), fun _ hmem => by cases hmem⟩
  | cons request rest ih =>
    let taken : TxScheduler := { s with pendingTxQueue_ := rest }
    have hline : s.line = request.id :: taken.line := by
      unfold TxScheduler.line
      rw [hwrite, hhalf, hqueue]
      rfl
    have htake : Passes resets [] s taken :=
      dropPending_passes resets s (by rw [hqueue]; exact List.sublist_cons_self _ _)
    have hrefuse : ∀ error : String,
        Hands resets s
          (driveHanding link rest (turn + 1)
            (taken.finishTxRequest request .rejected (some error) (link turn).nowMs))
          (driveLoop link rest (turn + 1)
            (taken.finishTxRequest request .rejected (some error) (link turn).nowMs)) := by
      intro error
      have hfinish := finishTxRequest_passes resets taken request .rejected (some error)
        (link turn).nowMs
      obtain ⟨hqueue', hwrite', hhalf'⟩ := finishTxRequest_slots taken request .rejected (some error)
        (link turn).nowMs
      have hline' := finishTxRequest_line taken request .rejected (some error) (link turn).nowMs
      refine Hands.after_refusal (htake.quiet hfinish) ?_
        (ih (turn + 1) (hwrite'.trans hwrite) (hhalf'.trans hhalf) hqueue')
      rw [hline', hline]
      exact List.suffix_cons _ _
    unfold driveHanding driveLoop
    dsimp only
    split
    · exact hrefuse _
    split
    · exact hrefuse _
    rename_i hguard
    split
    · exact hrefuse _
    · refine ⟨(fun hnone => by cases hnone), fun handed hhanded => ?_⟩
      cases hhanded
      refine ⟨rfl, ⟨hwrite, hhalf, fun hguarded => ?_⟩, rfl, fun _ => id, ?_⟩
      · rw [hguarded, Bool.true_and, Bool.not_eq_true] at hguard
        exact hguard
      · rw [hline]
        unfold TxScheduler.line Handing.line
        rw [hwrite, hhalf]
        exact List.suffix_refl _

theorem driveTxScheduler_hands (resets : Prop) (offline : Bool) (link : Nat → LinkAnswer)
    (s : TxScheduler) :
    Hands resets s (s.handing offline link) (s.driveTxScheduler offline link) := by
  unfold handing driveTxScheduler
  split
  · exact ⟨fun _ => .refl resets s, fun _ hmem => by cases hmem⟩
  · rename_i hidle
    simp only [Bool.or_eq_true, not_or, Option.not_isSome_iff_eq_none] at hidle
    exact driveLoop_hands resets link s.pendingTxQueue_ 0 hidle.1.2 hidle.2 rfl

/-! ### One step -/

/-- The state a step drives the scheduler from. -/
structure Driven (config : ProtocolTxConfig) (s : TxScheduler) (step : TxStep)
    (driven : TxScheduler) (offline : Bool) (link : Nat → LinkAnswer) : Prop where
  ids : stepIds step = []
  passes : Passes (resetsGuard step) [] s driven
  step : s.step config step = driven.driveTxScheduler offline link

theorem Exclusive.write_none (h : Exclusive s) (hhalf : s.activeHalfDuplexRequest_ = some active) :
    s.activeWrite_ = none := by
  obtain hwrite | hnone := h
  · exact hwrite
  · rw [hhalf] at hnone
    cases hnone

theorem Exclusive.halfDuplex_none (h : Exclusive s) (hwrite : s.activeWrite_ = some active) :
    s.activeHalfDuplexRequest_ = none := by
  obtain hnone | hhalf := h
  · rw [hwrite] at hnone
    cases hnone
  · exact hhalf

/-- The request that is awaited keeps its place. -/
theorem awaitAnswer_passes (resets : Prop) (hwrite : s.activeWrite_ = some active)
    (hhalf : s.activeHalfDuplexRequest_ = none) (event : TransportTxEvent) (error : Option String) :
    Passes resets [] s (s.awaitAnswer active event error) where
  line := by
    unfold TxScheduler.line awaitAnswer put
    dsimp only
    rw [hwrite, hhalf, List.append_nil]
    exact List.Sublist.refl _
  tasks := by
    unfold TxScheduler.tasks awaitAnswer put
    dsimp only
    rw [txTasks_append, txTasks_append]
    exact (List.append_nil _).trans (List.append_nil _)
  halted := fun _ => id

/-- The next attempt takes the place of the one that has timed out. -/
theorem retry_passes (resets : Prop) (h : Exclusive s)
    (hhalf : s.activeHalfDuplexRequest_ = some active) (currentMs : Nat) :
    Passes resets [] s
      ((s.releaseHalfDuplex.finishTxRequest active.request .timeout (some requestDoneTimeoutMessage)
        currentMs).pushFrontPending
          { active.request with attempt := active.request.attempt + 1 }) := by
  have hpasses := (releaseHalfDuplex_passes resets s).quiet
    (finishTxRequest_passes resets s.releaseHalfDuplex active.request .timeout
      (some requestDoneTimeoutMessage) currentMs)
  have hslots := finishTxRequest_slots s.releaseHalfDuplex active.request .timeout
    (some requestDoneTimeoutMessage) currentMs
  have hwrite := h.write_none hhalf
  refine ⟨?_, hpasses.tasks, hpasses.halted⟩
  generalize s.releaseHalfDuplex.finishTxRequest active.request .timeout
    (some requestDoneTimeoutMessage) currentMs = finished at hslots
  have hwrite' : finished.activeWrite_ = none := hslots.2.1.trans hwrite
  have hhalf' : finished.activeHalfDuplexRequest_ = none := hslots.2.2
  have hqueue : finished.pendingTxQueue_ = s.pendingTxQueue_ := hslots.1
  have hline : (finished.pushFrontPending
      { active.request with attempt := active.request.attempt + 1 }).line = s.line := by
    unfold TxScheduler.line pushFrontPending
    dsimp only
    rw [hwrite', hhalf', hqueue, hwrite, hhalf]
    rfl
  rw [hline, List.append_nil]

theorem drivenFrom_driven (config : ProtocolTxConfig) (h : Exclusive s) {step : TxStep}
    {driven : TxScheduler} {offline : Bool} {link : Nat → LinkAnswer}
    (hdriven : s.drivenFrom step = some (driven, offline, link)) :
    Driven config s step driven offline link := by
  cases step with
  | enqueue nowMs request => cases hdriven
  | scriptOutputs offline nowMs batch => cases hdriven
  | cancelAll reason nowMs => cases hdriven
  | drive offline link =>
    cases hdriven
    exact ⟨rfl, .refl _ s, rfl⟩
  | transportEvent offline link event =>
    unfold drivenFrom at hdriven
    dsimp only at hdriven
    cases hwrite : s.activeWrite_ with
    | none =>
      rw [hwrite] at hdriven
      cases hdriven
    | some active =>
      rw [hwrite] at hdriven
      dsimp only at hdriven
      split at hdriven
      · cases hdriven
      · rename_i hnot
        rw [not_or, not_not] at hnot
        cases hdriven
        refine ⟨rfl, ?_, processTransportTxEvent_finish offline link hwrite hnot.1 hnot.2⟩
        exact (clearWrite_passes _ s).quiet (finishTxRequest_passes _ _ _ _ _ _)
  | requestTimeouts offline link backlog currentMs =>
    unfold drivenFrom at hdriven
    dsimp only at hdriven
    cases hhalf : s.activeHalfDuplexRequest_ with
    | none =>
      rw [hhalf] at hdriven
      cases hdriven
    | some active =>
      rw [hhalf] at hdriven
      dsimp only at hdriven
      split at hdriven
      · cases hdriven
      · rename_i hdue
        cases hdriven
        have hstep : s.processRequestTimeouts offline link backlog currentMs =
            TxScheduler.driveTxScheduler offline link
              (if active.request.guarded ∧ active.request.attempt < active.request.maxAttempts then
                (s.releaseHalfDuplex.finishTxRequest active.request .timeout
                  (some requestDoneTimeoutMessage) currentMs).pushFrontPending
                    { active.request with attempt := active.request.attempt + 1 }
              else s.releaseHalfDuplex.finishTxRequest active.request .timeout
                (some requestDoneTimeoutMessage) currentMs) := by
          unfold processRequestTimeouts
          rw [hhalf]
          dsimp only
          rw [if_neg hdue]
        refine ⟨rfl, ?_, hstep⟩
        split
        · exact retry_passes _ h hhalf currentMs
        · exact (releaseHalfDuplex_passes _ s).quiet (finishTxRequest_passes _ _ _ _ _ _)

/-- A step that does not drive the scheduler hands nobody over. -/
theorem step_passes (config : ProtocolTxConfig) (h : Exclusive s) {step : TxStep}
    (hdriven : s.drivenFrom step = none) :
    Passes (resetsGuard step) (stepIds step) s (s.step config step) ∧
      (s.line.length ≤ config.maxPending → (s.step config step).line.length ≤ config.maxPending) := by
  have hsame : ∀ {resets : Prop} {t : TxScheduler}, Passes resets [] s t →
      s.line.length ≤ config.maxPending → t.line.length ≤ config.maxPending := by
    intro resets t hpasses hle
    have hlength := hpasses.line.length_le
    rw [List.append_nil] at hlength
    exact hlength.trans hle
  cases step with
  | enqueue nowMs request => exact enqueueTxRequest_passes _ config nowMs s request
  | scriptOutputs offline nowMs batch => exact applyScriptTxOutputs_passes config offline nowMs s batch
  | cancelAll reason nowMs =>
    have hpasses := cancelAllTxRequests_passes (resetsGuard (.cancelAll reason nowMs)) s reason nowMs
    exact ⟨hpasses, hsame hpasses⟩
  | drive offline link => cases hdriven
  | transportEvent offline link event =>
    suffices hpasses : Passes False [] s (s.processTransportTxEvent offline link event) from
      ⟨hpasses, hsame hpasses⟩
    unfold drivenFrom at hdriven
    dsimp only at hdriven
    cases hwrite : s.activeWrite_ with
    | none =>
      unfold processTransportTxEvent
      rw [hwrite]
      exact .refl _ s
    | some active =>
      rw [hwrite] at hdriven
      dsimp only at hdriven
      split at hdriven
      · rename_i hor
        by_cases hid : active.request.id = event.requestId
        · have hsent := hor.resolve_left (not_not.mpr hid)
          rw [processTransportTxEvent_sent offline link hwrite hid hsent]
          exact awaitAnswer_passes False hwrite (h.halfDuplex_none hwrite) event _
        · unfold processTransportTxEvent
          rw [hwrite]
          dsimp only
          rw [if_pos hid]
          exact .refl _ s
      · cases hdriven
  | requestTimeouts offline link backlog currentMs =>
    suffices hpasses : Passes False [] s (s.processRequestTimeouts offline link backlog currentMs) from
      ⟨hpasses, hsame hpasses⟩
    unfold drivenFrom at hdriven
    dsimp only at hdriven
    cases hhalf : s.activeHalfDuplexRequest_ with
    | none =>
      unfold processRequestTimeouts
      rw [hhalf]
      exact .refl _ s
    | some active =>
      rw [hhalf] at hdriven
      dsimp only at hdriven
      split at hdriven
      · rename_i hwait
        unfold processRequestTimeouts
        rw [hhalf]
        dsimp only
        rw [if_pos hwait]
        exact .refl _ s
      · cases hdriven

/-- What a step does to the line, whether it hands a request over or not. -/
structure StepHands (config : ProtocolTxConfig) (s : TxScheduler) (step : TxStep) : Prop where
  nobody : s.stepHanding step = none →
    Passes (resetsGuard step) (stepIds step) s (s.step config step)
  somebody : ∀ h ∈ s.stepHanding step, s.step config step = h.after ∧ h.Free ∧
    h.before.tasks = s.tasks ∧
    (¬ resetsGuard step → s.txRequestGuardHalted_ = true → h.before.txRequestGuardHalted_ = true) ∧
    stepIds step = [] ∧ ∃ standing : List Nat, standing.Sublist s.line ∧ h.line <:+ standing
  bound : s.line.length ≤ config.maxPending → (s.step config step).line.length ≤ config.maxPending

theorem step_hands (config : ProtocolTxConfig) (h : Exclusive s) (step : TxStep) :
    StepHands config s step := by
  rcases hdriven : s.drivenFrom step with _ | ⟨driven, offline, link⟩
  · obtain ⟨hpasses, hbound⟩ := step_passes config h hdriven
    have hnone : s.stepHanding step = none := by
      unfold stepHanding
      rw [hdriven]
      rfl
    refine ⟨fun _ => hpasses, fun handed hmem => ?_, hbound⟩
    rw [hnone] at hmem
    cases hmem
  · obtain ⟨hids, hpasses, hstep⟩ := drivenFrom_driven config h hdriven
    have hhanding : s.stepHanding step = driven.handing offline link := by
      unfold stepHanding
      rw [hdriven]
      rfl
    have hhands := driveTxScheduler_hands (resetsGuard step) offline link driven
    rw [← hhanding, ← hstep] at hhands
    have hline := hpasses.line
    rw [List.append_nil] at hline
    refine ⟨fun hnone => ?_, fun handed hmem => ?_, fun hle => ?_⟩
    · rw [hids]
      exact hpasses.quiet (hhands.nobody hnone)
    · obtain ⟨hafter, hfree, htasks, hhalted, hsuffix⟩ := hhands.somebody handed hmem
      exact ⟨hafter, hfree, htasks.trans hpasses.tasks,
        fun hresets hs => hhalted hresets (hpasses.halted hresets hs), hids, driven.line, hline, hsuffix⟩
    · cases hnone : s.stepHanding step with
      | none =>
        have hlength := (hpasses.quiet (hhands.nobody hnone)).line.length_le
        rw [List.append_nil] at hlength
        exact hlength.trans hle
      | some handed =>
        obtain ⟨hafter, hfree, -, -, hsuffix⟩ := hhands.somebody handed hnone
        rw [hafter, hfree.after_line]
        exact (hsuffix.length_le.trans hline.length_le).trans hle

/-! ### Runs -/

/-- Every step keeps one request active at most. -/
theorem step_exclusive (config : ProtocolTxConfig) (h : Exclusive s) (step : TxStep) :
    Exclusive (s.step config step) := by
  cases step with
  | enqueue nowMs request =>
    obtain ⟨hwrite, hhalf⟩ := enqueueTxRequest_slots config nowMs s request
    show Exclusive (enqueueTxRequest config nowMs s request)
    unfold Exclusive
    rw [hwrite, hhalf]
    exact h
  | scriptOutputs offline nowMs batch =>
    exact (applyScriptTxOutputs_moves 0 0 config offline nowMs h batch).2
  | cancelAll reason nowMs => exact (cancelAllTxRequests_moves 0 0 reason nowMs s).2
  | drive offline link => exact (driveTxScheduler_moves 0 0 offline link h).2
  | transportEvent offline link event => exact (processTransportTxEvent_moves 0 0 offline link h event).2
  | requestTimeouts offline link backlog currentMs =>
    exact (processRequestTimeouts_moves 0 0 offline link backlog currentMs h).2

theorem handings_concat (config : ProtocolTxConfig) (steps : List TxStep) (step : TxStep) :
    handings config (steps ++ [step]) =
      handings config steps ++ ((run config steps).stepHanding step).toList := by
  have hfrom : ∀ (steps : List TxStep) (s : TxScheduler),
      handingsFrom config s (steps ++ [step]) =
        handingsFrom config s steps ++ ((steps.foldl (TxScheduler.step config) s).stepHanding step).toList := by
    intro steps
    induction steps with
    | nil =>
      intro s
      exact List.append_nil _
    | cons first steps ih =>
      intro s
      exact (congrArg (_ ++ ·) (ih _)).trans (List.append_assoc _ _ _).symm
  exact hfrom steps {}

/-- The requests of a run, by their ids. -/
def requestIds (steps : List TxStep) : List Nat := steps.flatMap stepIds

/-- The line of a run. -/
def serviceLine (config : ProtocolTxConfig) (steps : List TxStep) : ServiceLine Nat where
  standing := (run config steps).line
  served := (handings config steps).map (·.request.id)
  joined := requestIds steps

/-- One request at a time, in every state of a run and whenever one is handed over. -/
structure OneAtATime (config : ProtocolTxConfig) (steps : List TxStep) : Prop where
  /-- Nothing is both written and awaited. -/
  exclusive : (run config steps).activeWrite_ = none ∨ (run config steps).activeHalfDuplexRequest_ = none
  bounded : (run config steps).pendingTxQueue_.length + (run config steps).activeWrite_.toList.length +
    (run config steps).activeHalfDuplexRequest_.toList.length ≤ config.maxPending
  /-- The transport gets the requests of the handings. -/
  handed : (run config steps).tasks = (handings config steps).map fun h => toTransportTxTask h.request
  /-- Nothing is active then, and the guard lets the request pass. -/
  free : ∀ h ∈ handings config steps, h.Free
  /-- The guard stays halted until it is reset. -/
  halted : ∀ before step, steps = before ++ [step] → ¬ resetsGuard step →
    (run config before).txRequestGuardHalted_ = true → (run config steps).txRequestGuardHalted_ = true
  /-- Between two attempts of one request there is no other. -/
  attempts : (requestIds steps).Nodup → ∀ before first between second after,
    handings config steps = before ++ first :: between ++ second :: after →
      first.request.id = second.request.id → ∀ h ∈ between, h.request.id = first.request.id

/-- What a run keeps. -/
structure RunKeeps (config : ProtocolTxConfig) (steps : List TxStep) : Prop where
  exclusive : Exclusive (run config steps)
  bounded : (run config steps).line.length ≤ config.maxPending
  handed : (run config steps).tasks = (handings config steps).map fun h => toTransportTxTask h.request
  free : ∀ h ∈ handings config steps, h.Free
  line : (requestIds steps).Nodup → (serviceLine config steps).Orderly

theorem requestIds_concat (steps : List TxStep) (step : TxStep) :
    requestIds (steps ++ [step]) = requestIds steps ++ stepIds step := by
  unfold requestIds
  rw [List.flatMap_append, List.flatMap_singleton]

/-- The new requests join, and those that end leave. -/
theorem RunKeeps.nobody {config : ProtocolTxConfig} {steps : List TxStep} (h : RunKeeps config steps)
    {step : TxStep} (hnone : (run config steps).stepHanding step = none) :
    RunKeeps config (steps ++ [step]) := by
  have hhands := step_hands config h.exclusive step
  have hpasses := hhands.nobody hnone
  have hhandings : handings config (steps ++ [step]) = handings config steps := by
    rw [handings_concat, hnone]
    exact List.append_nil _
  constructor
  · rw [run_concat]
    exact step_exclusive config h.exclusive step
  · rw [run_concat]
    exact hhands.bound h.bounded
  · rw [run_concat, hpasses.tasks, hhandings]
    exact h.handed
  · rw [hhandings]
    exact h.free
  · rw [requestIds_concat, List.nodup_append]
    rintro ⟨hold, hnew, hdisjoint⟩
    have hjoined := (h.line hold).join hnew fun id hid hmem => hdisjoint id hmem id hid rfl
    have hleft := hjoined.leave hpasses.line
    unfold serviceLine at hleft ⊢
    rw [run_concat, hhandings, requestIds_concat]
    exact hleft

/-- Those ahead of the request leave, and it is served. -/
theorem RunKeeps.somebody {config : ProtocolTxConfig} {steps : List TxStep} (h : RunKeeps config steps)
    {step : TxStep} {handed : Handing} (hsome : (run config steps).stepHanding step = some handed) :
    RunKeeps config (steps ++ [step]) := by
  have hhands := step_hands config h.exclusive step
  obtain ⟨hafter, hfree, htasks, -, hids, standing, hstanding, hsuffix⟩ :=
    hhands.somebody handed hsome
  have hhandings : handings config (steps ++ [step]) = handings config steps ++ [handed] := by
    rw [handings_concat, hsome]
    rfl
  constructor
  · rw [run_concat]
    exact step_exclusive config h.exclusive step
  · rw [run_concat]
    exact hhands.bound h.bounded
  · rw [run_concat, hafter, Handing.after_tasks, htasks, h.handed, hhandings, List.map_append]
    rfl
  · rw [hhandings]
    intro other hmem
    obtain hmem | hmem := List.mem_append.mp hmem
    · exact h.free other hmem
    · rw [List.mem_singleton.mp hmem]
      exact hfree
  · rw [requestIds_concat, hids, List.append_nil]
    intro hnodup
    have hserved := ((h.line hnodup).leave hstanding).serve hsuffix
    unfold serviceLine at hserved ⊢
    rw [run_concat, hafter, hfree.after_line, hhandings, requestIds_concat, hids, List.append_nil,
      List.map_append]
    exact hserved

theorem run_keeps (config : ProtocolTxConfig) (steps : List TxStep) : RunKeeps config steps := by
  induction steps using List.reverseRecOn with
  | nil =>
    exact ⟨.inl rfl, Nat.zero_le _, rfl, (fun _ hmem => nomatch hmem), fun _ => ServiceLine.orderly_empty⟩
  | append_singleton steps step ih =>
    cases hhanding : (run config steps).stepHanding step with
    | none => exact ih.nobody hhanding
    | some handed => exact ih.somebody hhanding

/-- **One request at a time**, in every run of the scheduler: nothing is handed to the transport
while a request is written or awaited or against the halted guard, the line is never longer
than the configured maximum, and the attempts of a request follow one another. -/
theorem one_at_a_time (config : ProtocolTxConfig) (steps : List TxStep) : OneAtATime config steps := by
  have hkeeps := run_keeps config steps
  refine ⟨hkeeps.exclusive, ?_, hkeeps.handed, hkeeps.free, ?_, ?_⟩
  · have hbounded := hkeeps.bounded
    unfold TxScheduler.line at hbounded
    simp only [List.length_append, List.length_map] at hbounded
    omega
  · rintro before step rfl hresets hhalted
    have hhands := step_hands config (run_keeps config before).exclusive step
    rw [run_concat]
    cases hhanding : (run config before).stepHanding step with
    | none => exact (hhands.nobody hhanding).halted hresets hhalted
    | some handed =>
      obtain ⟨hafter, -, -, hkept, -⟩ := hhands.somebody handed hhanding
      rw [hafter]
      exact hkept hresets hhalted
  · intro hnodup before first between second after hhandings hsame handed hmem
    have hconsecutive := (hkeeps.line hnodup).consecutive (before.map (·.request.id)) first.request.id
      (between.map (·.request.id)) (after.map (·.request.id))
    refine hconsecutive ?_ _ (List.mem_map_of_mem hmem)
    show (handings config steps).map (·.request.id) = _
    rw [hhandings, List.map_append, List.map_cons, List.map_append, List.map_cons, hsame]

/-- A guarded request that times out once, with another one behind it. -/
def retriedAhead : List TxStep :=
  [.enqueue 0 { id := 1, kind := .request, guarded := true, maxAttempts := 2 },
    .enqueue 0 { id := 2, kind := .send }, .drive false fun _ => {},
    .transportEvent false (fun _ => {}) { requestId := 1, state := .sent },
    .requestTimeouts false (fun _ => {}) false 1000]

theorem retriedAhead_one_at_a_time :
    (handings {} retriedAhead).map (·.request.id) = [1, 1] ∧ OneAtATime {} retriedAhead :=
  ⟨rfl, one_at_a_time {} retriedAhead⟩

end ProtoScope.App.TxScheduler
