/-
What a cancelled import still delivers, and when an import is reported active.

Cancelling clears the queue first and requests the stop after it.  A push that passes its
check of the stop request between the two queues one more batch, which `take` may give out
after `cancel` has returned.  Where no push does, a cancelled task stays empty: its worker
is not past the check when the queue is cleared, as it would hold the lock, and cannot pass
it later.

That a task is active exactly while its worker runs or batches wait does not depend on
where the request falls.
-/
import ProtoScope.App.DataTransferTask

namespace ProtoScope.App

open DataTransferTask

variable {α : Type}

/-- No batch is taken after the cancelling of its own task returned. -/
def NothingLate (returns : List (TransferReturn α)) : Prop :=
  ∀ before batch after, returns = before ++ .took batch :: after →
    TransferReturn.cancelled batch.id ∉ before

/-- The task is active exactly while its worker has not finished or batches wait. -/
def ActiveWhileOpen (task : DataTransferTask α) : Prop :=
  task.status.active = true ↔ task.worker.isRunning = true ∨ task.batches ≠ []

def TransferCaller.isCancelling : TransferCaller → Bool
  | .cancelling _ => true
  | _ => false

namespace DataTransferTask

/-- No push passes its check while a cancel stands between its section and its request. -/
def punctual (task : DataTransferTask α) : TransferAction α → Bool
  | .admitBatch => !task.caller.isCancelling
  | _ => true

/-- Every action of the run is punctual. -/
def punctualRun (task : DataTransferTask α) : List (TransferAction α) → Bool
  | [] => true
  | action :: actions =>
    task.punctual action && (task.step action).all fun next => next.1.punctualRun actions

open ProtoScope.Data (Text)

variable {task task' next : DataTransferTask α} {action : TransferAction α}
  {actions : List (TransferAction α)} {returned returned' returns : List (TransferReturn α)}

theorem runFrom_cons {last : DataTransferTask α}
    (h : task.runFrom (action :: actions) = some (last, returns)) :
    ∃ next here rest, task.step action = some (next, here) ∧
      next.runFrom actions = some (last, rest) ∧ returns = here ++ rest := by
  rw [runFrom, Option.bind_eq_some_iff] at h
  obtain ⟨⟨next, here⟩, hstep, h⟩ := h
  obtain ⟨⟨last', rest⟩, hrun, h⟩ := Option.map_eq_some_iff.mp h
  cases h
  exact ⟨next, here, rest, hstep, hrun, rfl⟩

theorem of_guard {β : Type} {guard : Bool} {x y : β} (h : (if guard then some x else none) = some y) :
    guard = true ∧ x = y := by
  rw [Option.ite_none_right_eq_some] at h
  exact ⟨h.1, Option.some.inj h.2⟩

theorem of_guards (h : (if task.isIdle && task.unlocked then some (next, returned) else none) =
      some (task', returned')) :
    task.isIdle = true ∧ task.unlocked = true ∧ task' = next ∧ returned' = returned := by
  obtain ⟨hguard, heq⟩ := of_guard h
  rw [Bool.and_eq_true] at hguard
  cases heq
  exact ⟨hguard.1, hguard.2, rfl, rfl⟩

/-! ### When a task is active -/

structure Reports (task : DataTransferTask α) : Prop where
  active : ActiveWhileOpen task
  complete : task.status.complete = task.worker.isFinished
  absent : task.worker = .absent → task.batches = []

theorem isFinished_of_isRunning {worker : TransferWorker α} (h : worker.isRunning = true) :
    worker.isFinished = false := by
  cases worker with
  | absent | finished => cases h
  | _ => rfl

theorem isFinished_of_not_isRunning {worker : TransferWorker α} (h : worker.isRunning = false)
    (habsent : worker ≠ .absent) : worker.isFinished = true := by
  cases worker with
  | absent => exact absurd rfl habsent
  | finished => rfl
  | _ => cases h

/-- A running worker keeps the task active, whatever is queued. -/
theorem Reports.of_running (h : Reports task) (hrun : task.worker.isRunning = true)
    (hnext : next.worker.isRunning = true) (hactive : next.status.active = task.status.active)
    (hcomplete : next.status.complete = task.status.complete) : Reports next where
  active := iff_of_true (hactive.trans (h.active.mpr (Or.inl hrun))) (Or.inl hnext)
  complete := by
    rw [hcomplete, h.complete, isFinished_of_isRunning hrun, isFinished_of_isRunning hnext]
  absent := by
    intro habsent
    rw [habsent] at hnext
    cases hnext

theorem Reports.of_same (h : Reports task) (hworker : next.worker = task.worker)
    (hbatches : next.batches = task.batches) (hactive : next.status.active = task.status.active)
    (hcomplete : next.status.complete = task.status.complete) : Reports next where
  active := by
    rw [ActiveWhileOpen, hworker, hbatches, hactive]
    exact h.active
  complete := by
    rw [hcomplete, hworker]
    exact h.complete
  absent := by
    rw [hworker, hbatches]
    exact h.absent

theorem Reports.startImport (h : Reports task) : Reports task.startImport := by
  unfold DataTransferTask.startImport
  split
  · exact h
  · exact ⟨iff_of_true rfl (Or.inl rfl), rfl, fun habsent => by cases habsent⟩

theorem Reports.clear (h : Reports task) : Reports task.clear := by
  refine ⟨?_, h.complete, fun _ => rfl⟩
  show (if task.status.complete then false else task.status.active) = true ↔
    task.worker.isRunning = true ∨ ([] : List (DataImportBatch α)) ≠ []
  by_cases hrun : task.worker.isRunning = true
  · rw [h.complete, isFinished_of_isRunning hrun, if_neg Bool.false_ne_true]
    exact iff_of_true (h.active.mpr (Or.inl hrun)) (Or.inl hrun)
  · rw [Bool.not_eq_true] at hrun
    refine iff_of_false ?_ (by simp [hrun])
    by_cases habsent : task.worker = .absent
    · intro hactive
      split at hactive
      · cases hactive
      · refine (h.active.mp hactive).elim (fun hc => ?_) (fun hc => hc (h.absent habsent))
        rw [hrun] at hc
        cases hc
    · rw [h.complete, isFinished_of_not_isRunning hrun habsent]
      exact Bool.false_ne_true

theorem Reports.take (h : Reports task) (maxSamples maxBytes : ℕ) :
    Reports (task.take maxSamples maxBytes).1 := by
  unfold DataTransferTask.take
  split
  · exact h
  · rename_i batch batches hbatches
    split
    · exact h
    · have hactive : task.status.active = true := h.active.mpr (Or.inr (by simp [hbatches]))
      have habsent : task.worker ≠ .absent := fun hc => by
        rw [h.absent hc] at hbatches
        cases hbatches
      refine ⟨?_, h.complete, fun hc => absurd hc habsent⟩
      show (if batches.isEmpty && task.status.complete then false else task.status.active) = true ↔
        task.worker.isRunning = true ∨ batches ≠ []
      by_cases hrun : task.worker.isRunning = true
      · rw [h.complete, isFinished_of_isRunning hrun, Bool.and_false, if_neg Bool.false_ne_true]
        exact iff_of_true hactive (Or.inl hrun)
      · rw [Bool.not_eq_true] at hrun
        rw [h.complete, isFinished_of_not_isRunning hrun habsent, Bool.and_true, hrun, hactive]
        cases batches <;> simp

theorem Reports.finish (error : Text) (canceled : Bool) : Reports (task.finish error canceled) := by
  refine ⟨?_, rfl, fun habsent => by cases habsent⟩
  show (!(task.finish error canceled).batches.isEmpty) = true ↔
    false = true ∨ (task.finish error canceled).batches ≠ []
  simp

theorem Reports.step (h : Reports task) (hstep : task.step action = some (next, returned)) :
    Reports next := by
  cases action with
  | startImport =>
    obtain ⟨-, -, rfl, -⟩ := of_guards hstep
    exact h.startImport
  | confirm =>
    obtain ⟨-, -, rfl, -⟩ := of_guards hstep
    exact h.of_same rfl rfl rfl rfl
  | cancel =>
    obtain ⟨-, -, rfl, -⟩ := of_guards hstep
    unfold cancel
    split
    · exact h.clear.of_same rfl rfl rfl rfl
    · exact h
  | fail error =>
    obtain ⟨-, -, rfl, -⟩ := of_guards hstep
    unfold fail
    split
    · exact h.clear.of_same rfl rfl rfl rfl
    · exact h.of_same rfl rfl rfl rfl
  | requestStop =>
    obtain ⟨mid, hmid, heq⟩ := Option.map_eq_some_iff.mp hstep
    cases heq
    unfold requestStop at hmid
    split at hmid
    · cases hmid
      exact h.of_same rfl rfl rfl rfl
    · cases hmid
  | cancelReturn =>
    obtain ⟨mid, hmid, heq⟩ := Option.map_eq_some_iff.mp hstep
    cases heq
    unfold cancelReturn at hmid
    split at hmid
    · cases hmid
      exact h.of_same rfl rfl rfl rfl
    · obtain ⟨-, rfl⟩ := of_guard hmid
      exact h.of_same rfl rfl rfl rfl
    · cases hmid
  | take maxSamples maxBytes =>
    obtain ⟨-, -, rfl, -⟩ := of_guards hstep
    exact h.take maxSamples maxBytes
  | readStatus =>
    obtain ⟨-, -, rfl, -⟩ := of_guards hstep
    exact h
  | submitted count =>
    obtain ⟨-, -, rfl, -⟩ := of_guards hstep
    exact h.of_same rfl rfl rfl rfl
  | produced count | announce includesRecords | push batch =>
    dsimp only [DataTransferTask.step] at hstep
    split at hstep
    · rename_i hworker
      cases hstep
      refine h.of_running (by rw [hworker]; rfl) ?_ rfl rfl
      first | rfl | exact (congrArg _ hworker).trans rfl
    · cases hstep
  | confirmationSeen | pushRefused =>
    dsimp only [DataTransferTask.step] at hstep
    split at hstep
    · rename_i hworker
      obtain ⟨-, heq⟩ := of_guard hstep
      cases heq
      exact h.of_running (by rw [hworker]; rfl) rfl rfl rfl
    · cases hstep
  | admitBatch =>
    obtain ⟨mid, hmid, heq⟩ := Option.map_eq_some_iff.mp hstep
    cases heq
    unfold admitBatch at hmid
    split at hmid
    · rename_i hworker
      rw [Option.ite_none_right_eq_some] at hmid
      obtain ⟨-, hmid⟩ := hmid
      cases hmid
      exact h.of_running (by rw [hworker]; rfl) rfl rfl rfl
    · cases hmid
  | append =>
    obtain ⟨mid, hmid, heq⟩ := Option.map_eq_some_iff.mp hstep
    cases heq
    unfold append at hmid
    split at hmid
    · rename_i hworker
      cases hmid
      exact h.of_running (by rw [hworker]; rfl) rfl rfl rfl
    · cases hmid
  | finish error canceled =>
    dsimp only [DataTransferTask.step] at hstep
    split at hstep
    · rw [Option.ite_none_left_eq_some] at hstep
      obtain ⟨-, heq⟩ := hstep
      cases heq
      exact Reports.finish error canceled
    · cases hstep

theorem Reports.runFrom (h : Reports task) (hrun : task.runFrom actions = some (next, returns)) :
    Reports next := by
  induction actions generalizing task returns with
  | nil =>
    cases hrun
    exact h
  | cons action actions ih =>
    obtain ⟨mid, here, rest, hstep, hrest, -⟩ := runFrom_cons hrun
    exact ih (h.step hstep) hrest

/-! ### What a cancelled task still delivers -/

theorem nothingLate_append (h : NothingLate returns)
    (hnew : ∀ batch, .took batch ∈ returned → TransferReturn.cancelled batch.id ∉ returns ++ returned) :
    NothingLate (returns ++ returned) := by
  intro before batch after heq hmem
  rcases List.append_eq_append_iff.mp heq with ⟨middle, hbefore, hreturned⟩ | ⟨middle, hreturns, hafter⟩
  · refine hnew batch ?_ ?_
    · rw [hreturned]
      exact List.mem_append_right _ List.mem_cons_self
    · rw [heq]
      exact List.mem_append_left _ hmem
  · cases middle with
    | nil =>
      rw [List.nil_append] at hafter
      refine hnew batch ?_ ?_
      · rw [← hafter]
        exact List.mem_cons_self
      · rw [heq]
        exact List.mem_append_left _ hmem
    | cons first middle =>
      cases hafter
      exact h before batch middle hreturns hmem

/-- What holds of a task whose run so far was punctual. -/
structure Quiet (task : DataTransferTask α) (returns : List (TransferReturn α)) : Prop where
  quiet : task.status.canceled = true → task.batches = [] ∧ task.unlocked = true ∧
    (task.worker.isRunning = true → task.stopRequested = true ∨ task.caller.isCancelling = true)
  inside : task.isIdle = false → task.status.canceled = true
  returned : ∀ id, .cancelled id ∈ returns →
    id < task.status.id ∨ id = task.status.id ∧ task.status.canceled = true
  numbered : ∀ batch ∈ task.batches, batch.id = task.status.id
  late : NothingLate returns

/-- The worker moves outside the lock, and the caller stays. -/
theorem Quiet.of_worker (h : Quiet task returns)
    (hunlocked : task.unlocked = true → next.unlocked = true)
    (hrunning : next.worker.isRunning = true → task.worker.isRunning = true)
    (hcanceled : next.status.canceled = task.status.canceled) (hid : next.status.id = task.status.id)
    (hbatches : next.batches = task.batches) (hstop : next.stopRequested = task.stopRequested)
    (hcaller : next.caller = task.caller) : Quiet next returns where
  quiet hc := by
    obtain ⟨hempty, hbefore, hstopped⟩ := h.quiet (hcanceled ▸ hc)
    rw [hbatches, hstop, hcaller]
    exact ⟨hempty, hunlocked hbefore, fun hrun => hstopped (hrunning hrun)⟩
  inside hc := by
    rw [hcanceled]
    refine h.inside ?_
    rw [← hc, isIdle, isIdle, hcaller]
  returned id hmem := by
    rw [hid, hcanceled]
    exact h.returned id hmem
  numbered batch hmem := by
    rw [hid]
    exact h.numbered batch (hbatches ▸ hmem)
  late := h.late

theorem unlocked_congr (h : next.worker = task.worker) : next.unlocked = task.unlocked := by
  rw [unlocked, unlocked, h]

/-- Nothing that the account speaks of changes. -/
theorem Quiet.of_same (h : Quiet task returns) (hworker : next.worker = task.worker)
    (hcanceled : next.status.canceled = task.status.canceled) (hid : next.status.id = task.status.id)
    (hbatches : next.batches = task.batches) (hstop : next.stopRequested = task.stopRequested)
    (hcaller : next.caller = task.caller) : Quiet next returns :=
  h.of_worker (unlocked_congr hworker).trans (by rw [hworker]; exact id) hcanceled hid hbatches hstop
    hcaller

theorem Quiet.startImport (h : Quiet task returns) (hidle : task.isIdle = true) :
    Quiet task.startImport returns := by
  unfold DataTransferTask.startImport
  split
  · exact h
  · refine ⟨(fun hc => by cases hc), fun hc => ?_, fun id hmem => Or.inl ?_, fun batch hmem => ?_,
      h.late⟩
    · exact absurd hidle (Bool.eq_false_iff.mp hc)
    · show id < task.status.id + 1
      rcases h.returned id hmem with hlt | ⟨rfl, -⟩ <;> omega
    · cases hmem

/-- The section of `cancel` empties the queue, and nobody is in a push. -/
theorem Quiet.clear (h : Quiet task returns) (hunlocked : task.unlocked = true)
    (error : Option Data.Text) :
    Quiet { task.clear with caller := .cancelling error } returns where
  quiet _ := ⟨rfl, (unlocked_congr rfl).trans hunlocked, fun _ => Or.inr rfl⟩
  inside _ := rfl
  returned id hmem := (h.returned id hmem).imp_right fun hid => ⟨hid.1, rfl⟩
  numbered batch hmem := by cases hmem
  late := h.late

theorem Quiet.requestStop (h : Quiet task returns) (hnext : task.requestStop = some next) :
    Quiet next returns := by
  unfold DataTransferTask.requestStop at hnext
  split at hnext
  · rename_i error hcaller
    cases hnext
    have hcanceled : task.status.canceled = true := h.inside (by rw [isIdle, hcaller])
    obtain ⟨hempty, hunlocked, -⟩ := h.quiet hcanceled
    exact ⟨fun _ => ⟨hempty, hunlocked, fun _ => Or.inl rfl⟩, fun _ => hcanceled, h.returned,
      h.numbered, h.late⟩
  · cases hnext

theorem Quiet.cancelReturn (h : Quiet task returns) (hnext : task.cancelReturn = some next) :
    Quiet next (returns ++ [.cancelled task.status.id]) := by
  have hall : ∀ {error : Option Data.Text}, task.caller = .stopping error →
      next.worker = task.worker → next.status.canceled = task.status.canceled →
      next.status.id = task.status.id → next.batches = task.batches →
      next.stopRequested = task.stopRequested → next.isIdle = true →
      Quiet next (returns ++ [.cancelled task.status.id]) := by
    intro error hcaller hworker hcanceled hid hbatches hstop hidle
    have hset : task.status.canceled = true := h.inside (by rw [isIdle, hcaller])
    obtain ⟨hempty, hunlocked, hstopped⟩ := h.quiet hset
    refine ⟨fun _ => ?_, fun hc => absurd hidle (Bool.eq_false_iff.mp hc), fun id hmem => ?_,
      fun batch hmem => ?_, nothingLate_append h.late fun batch hmem => ?_⟩
    · rw [hbatches, hstop, unlocked_congr hworker, hworker]
      refine ⟨hempty, hunlocked, fun hrun => Or.inl ?_⟩
      refine (hstopped hrun).resolve_right fun hc => ?_
      rw [hcaller] at hc
      cases hc
    · rw [hid, hcanceled]
      rcases List.mem_append.mp hmem with hold | hnew
      · exact h.returned id hold
      · cases List.mem_singleton.mp hnew
        exact Or.inr ⟨rfl, hset⟩
    · rw [hid]
      exact h.numbered batch (hbatches ▸ hmem)
    · cases List.mem_singleton.mp hmem
  unfold DataTransferTask.cancelReturn at hnext
  split at hnext
  · rename_i hcaller
    cases hnext
    exact hall hcaller rfl rfl rfl rfl rfl rfl
  · rename_i error hcaller
    obtain ⟨-, rfl⟩ := of_guard hnext
    exact hall hcaller rfl rfl rfl rfl rfl rfl
  · cases hnext

/-- What is taken is of a task that was not cancelled. -/
theorem Quiet.take (h : Quiet task returns) (maxSamples maxBytes : ℕ) :
    Quiet (task.take maxSamples maxBytes).1
      (returns ++ (task.take maxSamples maxBytes).2.toList.map .took) := by
  unfold DataTransferTask.take
  split
  · rw [Option.toList_none, List.map_nil, List.append_nil]
    exact h
  · rename_i batch batches hbatches
    split
    · rw [Option.toList_none, List.map_nil, List.append_nil]
      exact h
    · have hnot : ¬ task.status.canceled = true := fun hc => by
        rw [(h.quiet hc).1] at hbatches
        cases hbatches
      have hreturned : ∀ id, TransferReturn.cancelled id ∉ [TransferReturn.took batch] :=
        fun id hmem => by cases List.mem_singleton.mp hmem
      refine ⟨fun hc => absurd hc hnot, h.inside, fun id hmem => ?_, fun other hmem => ?_,
        nothingLate_append h.late fun other hother hmem => ?_⟩
      · exact h.returned id ((List.mem_append.mp hmem).resolve_right (hreturned id))
      · exact h.numbered other (by rw [hbatches]; exact List.mem_cons_of_mem _ hmem)
      · cases List.mem_singleton.mp hother
        have hid := h.numbered batch (by rw [hbatches]; exact List.mem_cons_self)
        rcases h.returned _ ((List.mem_append.mp hmem).resolve_right (hreturned _)) with hlt | ⟨-, hc⟩
        · omega
        · exact hnot hc

theorem Quiet.append (h : Quiet task returns) (hnext : task.append = some next) :
    Quiet next returns := by
  unfold DataTransferTask.append at hnext
  split at hnext
  · rename_i batch hworker
    cases hnext
    have hnot : ¬ task.status.canceled = true := fun hc => by
      have hunlocked := (h.quiet hc).2.1
      rw [unlocked, hworker] at hunlocked
      cases hunlocked
    refine ⟨fun hc => absurd hc hnot, h.inside, h.returned, fun other hmem => ?_, h.late⟩
    rcases List.mem_append.mp hmem with hmem | hmem
    · exact h.numbered other hmem
    · rw [List.mem_singleton.mp hmem]
  · cases hnext

theorem Quiet.admitBatch (h : Quiet task returns) (hpunctual : task.caller.isCancelling = false)
    (hnext : task.admitBatch = some next) : Quiet next returns := by
  unfold DataTransferTask.admitBatch at hnext
  split at hnext
  · rename_i batch hworker
    rw [Option.ite_none_right_eq_some] at hnext
    obtain ⟨⟨-, hstop⟩, hnext⟩ := hnext
    cases hnext
    have hnot : ¬ task.status.canceled = true := fun hc => by
      rcases (h.quiet hc).2.2 (by rw [hworker]; rfl) with hc | hc
      · rw [hstop] at hc
        cases hc
      · rw [hpunctual] at hc
        cases hc
    exact ⟨fun hc => absurd hc hnot, h.inside, h.returned, h.numbered, h.late⟩
  · cases hnext

theorem Quiet.finish (h : Quiet task returns) (error : Data.Text) (canceled : Bool) :
    Quiet (task.finish error canceled) returns where
  quiet hc := by
    have hset : (canceled || task.status.canceled) = true := hc
    refine ⟨?_, rfl, fun hrun => by cases hrun⟩
    unfold DataTransferTask.finish
    simp only [hset, Bool.true_or, if_true]
  inside hc := by
    show (canceled || task.status.canceled) = true
    rw [h.inside hc, Bool.or_true]
  returned id hmem := (h.returned id hmem).imp_right fun hid =>
    ⟨hid.1, show (canceled || task.status.canceled) = true by rw [hid.2, Bool.or_true]⟩
  numbered batch hmem := by
    refine h.numbered batch ?_
    dsimp only [DataTransferTask.finish] at hmem
    by_cases hclear : (canceled || task.status.canceled ||
        !(if task.status.error = [] then error else task.status.error).isEmpty) = true
    · rw [if_pos hclear] at hmem
      cases hmem
    · rw [if_neg hclear] at hmem
      exact hmem
  late := h.late

theorem Quiet.step (h : Quiet task returns) (hpunctual : task.punctual action = true)
    (hstep : task.step action = some (next, returned)) : Quiet next (returns ++ returned) := by
  cases action with
  | startImport =>
    obtain ⟨hidle, -, rfl, rfl⟩ := of_guards hstep
    rw [List.append_nil]
    exact h.startImport hidle
  | confirm =>
    obtain ⟨-, -, rfl, rfl⟩ := of_guards hstep
    rw [List.append_nil]
    exact h.of_same rfl rfl rfl rfl rfl rfl
  | cancel =>
    obtain ⟨-, hunlocked, rfl, rfl⟩ := of_guards hstep
    rw [List.append_nil]
    unfold cancel
    split
    · exact h.clear hunlocked none
    · exact h
  | fail error =>
    obtain ⟨-, hunlocked, rfl, rfl⟩ := of_guards hstep
    rw [List.append_nil]
    unfold fail
    split
    · exact h.clear hunlocked (some error)
    · exact h.of_same rfl rfl rfl rfl rfl rfl
  | requestStop =>
    obtain ⟨mid, hmid, heq⟩ := Option.map_eq_some_iff.mp hstep
    cases heq
    rw [List.append_nil]
    exact h.requestStop hmid
  | cancelReturn =>
    obtain ⟨mid, hmid, heq⟩ := Option.map_eq_some_iff.mp hstep
    cases heq
    exact h.cancelReturn hmid
  | take maxSamples maxBytes =>
    obtain ⟨-, -, rfl, rfl⟩ := of_guards hstep
    exact h.take maxSamples maxBytes
  | readStatus =>
    obtain ⟨-, -, rfl, rfl⟩ := of_guards hstep
    refine ⟨h.quiet, h.inside, fun id hmem => h.returned id ?_, h.numbered,
      nothingLate_append h.late fun batch hmem => ?_⟩
    · exact (List.mem_append.mp hmem).resolve_right fun hc => by cases List.mem_singleton.mp hc
    · cases List.mem_singleton.mp hmem
  | submitted count =>
    obtain ⟨-, -, rfl, rfl⟩ := of_guards hstep
    rw [List.append_nil]
    exact h.of_same rfl rfl rfl rfl rfl rfl
  | produced count | announce includesRecords | push batch =>
    dsimp only [DataTransferTask.step] at hstep
    split at hstep
    · rename_i hworker
      cases hstep
      rw [List.append_nil]
      refine h.of_worker (fun _ => ?_) (fun _ => by rw [hworker]; rfl) rfl rfl rfl rfl rfl
      first | rfl | (rw [unlocked]; dsimp only; rw [hworker])
    · cases hstep
  | confirmationSeen | pushRefused =>
    dsimp only [DataTransferTask.step] at hstep
    split at hstep
    · rename_i hworker
      obtain ⟨-, heq⟩ := of_guard hstep
      cases heq
      rw [List.append_nil]
      exact h.of_worker (fun _ => rfl) (fun _ => by rw [hworker]; rfl) rfl rfl rfl rfl rfl
    · cases hstep
  | admitBatch =>
    obtain ⟨mid, hmid, heq⟩ := Option.map_eq_some_iff.mp hstep
    cases heq
    rw [List.append_nil]
    exact h.admitBatch (by simpa [punctual] using hpunctual) hmid
  | append =>
    obtain ⟨mid, hmid, heq⟩ := Option.map_eq_some_iff.mp hstep
    cases heq
    rw [List.append_nil]
    exact h.append hmid
  | finish error canceled =>
    dsimp only [DataTransferTask.step] at hstep
    split at hstep
    · rw [Option.ite_none_left_eq_some] at hstep
      obtain ⟨-, heq⟩ := hstep
      cases heq
      rw [List.append_nil]
      exact h.finish error canceled
    · cases hstep

theorem Quiet.runFrom {before : List (TransferReturn α)} (h : Quiet task before)
    (hpunctual : task.punctualRun actions = true) (hrun : task.runFrom actions = some (next, returns)) :
    Quiet next (before ++ returns) := by
  induction actions generalizing task before returns with
  | nil =>
    cases hrun
    rw [List.append_nil]
    exact h
  | cons action actions ih =>
    obtain ⟨mid, here, rest, hstep, hrest, rfl⟩ := runFrom_cons hrun
    rw [punctualRun, Bool.and_eq_true, hstep, Option.all_some] at hpunctual
    have hmid := h.step hpunctual.1 hstep
    rw [← List.append_assoc]
    exact ih hmid hpunctual.2 hrest

end DataTransferTask

/-- **A punctually cancelled import delivers nothing more**, and in every run an import is
reported active exactly while its worker has not finished or batches wait. -/
theorem cancelled_import_delivers_nothing (actions : List (TransferAction α))
    (task : DataTransferTask α) (returns : List (TransferReturn α))
    (hrun : DataTransferTask.run actions = some (task, returns)) :
    (DataTransferTask.punctualRun {} actions = true → NothingLate returns) ∧
      ActiveWhileOpen task := by
  have hreports : DataTransferTask.Reports ({} : DataTransferTask α) :=
    ⟨iff_of_false Bool.false_ne_true (by simp [TransferWorker.isRunning]), rfl, fun _ => rfl⟩
  have hquiet : DataTransferTask.Quiet ({} : DataTransferTask α) [] := by
    refine ⟨(fun hc => by cases hc), (fun hc => by cases hc), (fun id hmem => by cases hmem),
      (fun batch hmem => by cases hmem), fun before batch after heq => ?_⟩
    exact absurd heq (by simp)
  refine ⟨fun hpunctual => ?_, (hreports.runFrom hrun).active⟩
  exact (hquiet.runFrom hpunctual hrun).late

/-- A push that waits when the stop is requested is refused. -/
theorem cancelled_import_delivers_nothing_once :
    NothingLate [(TransferReturn.cancelled 1 : TransferReturn ℚ)] := by
  have hreturns : (DataTransferTask.run [.startImport,
      .push ({ samples := [⟨0, 0⟩] } : DataImportBatch ℚ), .cancel, .requestStop, .pushRefused,
      .cancelReturn, .finish [] true, .take 8192 65536]).map Prod.snd = some [.cancelled 1] := rfl
  obtain ⟨⟨task, returns⟩, hrun, rfl⟩ := Option.map_eq_some_iff.mp hreturns
  exact (cancelled_import_delivers_nothing _ task _ hrun).1 rfl

/-- A push that passes its check between the clearing and the request is taken afterwards. -/
theorem batch_taken_after_cancel :
    ¬ ∀ (actions : List (TransferAction ℚ)) (task : DataTransferTask ℚ)
      (returns : List (TransferReturn ℚ)),
      DataTransferTask.run actions = some (task, returns) → NothingLate returns := by
  intro hall
  have hreturns : (DataTransferTask.run [.startImport,
      .push ({ samples := [⟨0, 0⟩] } : DataImportBatch ℚ), .cancel, .admitBatch, .requestStop,
      .cancelReturn, .append, .take 8192 65536]).map Prod.snd =
        some [.cancelled 1, .took { id := 1, samples := [⟨0, 0⟩] }] := rfl
  obtain ⟨⟨task, returns⟩, hrun, rfl⟩ := Option.map_eq_some_iff.mp hreturns
  exact hall _ task _ hrun [.cancelled 1] _ [] rfl List.mem_cons_self

end ProtoScope.App
