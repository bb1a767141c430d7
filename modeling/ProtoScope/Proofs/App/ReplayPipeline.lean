/-
The way of the events through the offline worker.

A control event takes effect when nothing of the received events before it is left on the
way: queued, at work, in the outputs or among the plot appends.  The worker and the flushes
only move what is on the way on, so what has been empty stays empty.  A profile that waits
for its turn is the last that was submitted with an effect, which its fence knows; loading
the protocol, which drops the bytes in the queue, finds none there.
-/
import ProtoScope.Proofs.App.ReplayFrames

namespace ProtoScope.App

open ProtoScope.Plot

def OfflineCommand.profileEvent? : OfflineCommand → Option ℕ
  | .profile event => some event
  | _ => none

/-- Nothing received before the control event is left on the way, and nothing received after
it has been submitted. -/
def ControlEffect.InOrder (effect : ControlEffect) : Prop :=
  (∀ event ∈ effect.unapplied, ¬ event < effect.event) ∧
    ∀ event ∈ effect.posted, ¬ effect.event < event

namespace OfflineWorker

/-- The command that was taken, unless it has run. -/
def taken (worker : OfflineWorker) : List OfflineCommand :=
  match worker.executing with
  | some (command, .taken) => [command]
  | _ => []

/-- The commands that have not run yet. -/
def waiting (worker : OfflineWorker) : List OfflineCommand := worker.taken ++ worker.commands

def profiles (worker : OfflineWorker) : List ℕ :=
  worker.waiting.filterMap OfflineCommand.profileEvent?

def events (worker : OfflineWorker) : List ℕ :=
  worker.commands.filterMap OfflineCommand.rxEvent? ++
    (worker.executing.toList.filterMap fun command => command.1.rxEvent?) ++
      worker.outputs.filterMap WorkerBatch.event

/-- Only the first command loads a protocol, the buffers are those of the protocol that is
loaded, and outputs come from the command that has run. -/
structure Wf (worker : OfflineWorker) : Prop where
  loads : .load ∉ worker.waiting.tail
  host : worker.hostBuffer.isSome = true → .load ∉ worker.waiting
  stream : worker.streamBuffer.isSome = true → worker.streamBuffer = worker.hostBuffer
  batch : ∀ command batch, worker.executing = some (command, .executed (some batch)) →
    batch.event = command.rxEvent?

end OfflineWorker

namespace RawCaptureReplay

def waiting (s : RawCaptureReplay) : List OfflineCommand :=
  s.worker.elim [] OfflineWorker.waiting

def profiles (s : RawCaptureReplay) : List ℕ := s.worker.elim [] OfflineWorker.profiles

def profileResults (s : RawCaptureReplay) : List (ℕ × Bool) :=
  s.worker.elim [] OfflineWorker.profileResults

theorem workerEvents_eq (s : RawCaptureReplay) :
    s.workerEvents = s.worker.elim [] OfflineWorker.events := by
  unfold workerEvents
  cases s.worker with
  | none => rfl
  | some worker => rfl

/-- The invariant of what is on the way. -/
structure Pipeline (s : RawCaptureReplay) : Prop where
  browse : s.browses → s.worker = none ∧ s.unapplied = []
  dropped : s.dropped = []
  worker : ∀ worker ∈ s.worker, worker.Wf
  loading : .load ∈ s.waiting → s.workerEvents = []
  posted : ∀ j ∈ s.posted, j ≤ s.eventIndex ∧ ∃ event ∈ s.events[j]?, event.type = .rxBytes
  increasing : s.profiles.Pairwise (· < ·)
  results : ∀ result ∈ s.profileResults, result.1 < s.eventIndex
  fence : ∀ i ∈ s.profiles.getLast?, s.profileFence = some i ∧ s.profileResults.lookup i = none
  ahead : ∀ i ∈ s.profiles, i < s.eventIndex ∧ s.unapplied = [] ∧ ∀ j ∈ s.posted, j < i
  effects : ∀ effect ∈ s.effects, effect.InOrder

/-- One state comes from another by moving on what is on the way. -/
structure Moved (s t : RawCaptureReplay) : Prop extends SamePosition s t where
  pipeline : t.Pipeline
  stream : s.streamBuffer.isSome = true → t.streamBuffer = s.streamBuffer
  load : .load ∈ t.waiting → .load ∈ s.waiting
  unapplied : t.unapplied ⊆ s.unapplied
  profiles : t.profiles <:+ s.profiles

variable {s : RawCaptureReplay} {worker : OfflineWorker}

theorem Moved.refl (h : s.Pipeline) : Moved s s where
  toSamePosition := SamePosition.refl s
  pipeline := h
  stream := fun _ => rfl
  load := id
  unapplied := List.Subset.refl _
  profiles := List.suffix_refl _

theorem Moved.trans {t u : RawCaptureReplay} (h : Moved s t) (h' : Moved t u) : Moved s u where
  toSamePosition := h.toSamePosition.trans h'.toSamePosition
  pipeline := h'.pipeline
  stream := by
    intro hsome
    have heq := h.stream hsome
    rw [← heq] at hsome
    exact (h'.stream hsome).trans heq
  load := fun hload => h.load (h'.load hload)
  unapplied := List.Subset.trans h'.unapplied h.unapplied
  profiles := h'.profiles.trans h.profiles

/-- What is on the way moves on, and no profile runs. -/
theorem Pipeline.moved {t : RawCaptureReplay} (h : s.Pipeline) (hsame : SamePosition s t)
    (hdropped : t.dropped = s.dropped) (heffects : t.effects = s.effects)
    (hworker : ∀ worker ∈ t.worker, worker.Wf) (hevents : t.workerEvents ⊆ s.workerEvents)
    (hunapplied : t.unapplied ⊆ s.unapplied) (hload : .load ∈ t.waiting → .load ∈ s.waiting)
    (hprofiles : t.profiles = s.profiles) (hresults : t.profileResults = s.profileResults)
    (hstream : s.streamBuffer.isSome = true → t.streamBuffer = s.streamBuffer) : Moved s t := by
  have hnil : s.unapplied = [] → t.unapplied = [] := by
    intro heq
    rw [heq] at hunapplied
    exact List.eq_nil_of_subset_nil hunapplied
  refine ⟨hsame, ⟨?_, ?_, hworker, ?_, ?_, ?_, ?_, ?_, ?_, ?_⟩, hstream, hload, hunapplied, ?_⟩
  · intro hbrowse
    have hnone := h.browse (hsame.processing.symm.trans hbrowse)
    refine ⟨Option.isNone_iff_eq_none.mp ?_, hnil hnone.2⟩
    rw [Option.isNone_iff_eq_none, ← Option.not_isSome_iff_eq_none, hsame.isSome_worker, hnone.1]
    exact Bool.noConfusion
  · exact hdropped.trans h.dropped
  · intro hwaiting
    have heq := h.loading (hload hwaiting)
    rw [heq] at hevents
    exact List.eq_nil_of_subset_nil hevents
  · rw [hsame.posted, hsame.eventIndex, hsame.events]
    exact h.posted
  · rw [hprofiles]
    exact h.increasing
  · rw [hresults, hsame.eventIndex]
    exact h.results
  · rw [hprofiles, hresults, hsame.profileFence]
    exact h.fence
  · rw [hprofiles, hsame.eventIndex, hsame.posted]
    intro i hi
    obtain ⟨hlt, hunapplied, hposted⟩ := h.ahead i hi
    exact ⟨hlt, hnil hunapplied, hposted⟩
  · rw [heffects]
    exact h.effects
  · rw [hprofiles]

/-! ### The worker's thread -/

theorem waiting_of (h : s.worker = some worker) : s.waiting = worker.waiting := by
  unfold waiting
  rw [h]
  rfl

theorem profiles_of (h : s.worker = some worker) : s.profiles = worker.profiles := by
  unfold profiles
  rw [h]
  rfl

theorem profileResults_of (h : s.worker = some worker) :
    s.profileResults = worker.profileResults := by
  unfold profileResults
  rw [h]
  rfl

theorem workerEvents_of (h : s.worker = some worker) : s.workerEvents = worker.events := by
  rw [workerEvents_eq, h]
  rfl

theorem streamBuffer_of (h : s.worker = some worker) : s.streamBuffer = worker.streamBuffer := by
  unfold streamBuffer
  rw [h]
  rfl

theorem mem_unapplied (hdropped : s.dropped = []) (i : ℕ) :
    i ∈ s.unapplied ↔ i ∈ s.workerEvents ∨ some i ∈ s.pendingPlotAppends := by
  unfold unapplied
  rw [hdropped, List.append_nil, List.mem_append, List.mem_filterMap]
  simp

/-- Another worker in the place of one, and other appends. -/
theorem Pipeline.withWorker (h : s.Pipeline) {other : OfflineWorker}
    (hworker : s.worker = some worker) (appends : List (Option ℕ)) (hwf : other.Wf)
    (hevents : other.events ⊆ worker.events)
    (happends : ∀ i, some i ∈ appends → i ∈ worker.events ∨ some i ∈ s.pendingPlotAppends)
    (hload : .load ∈ other.waiting → .load ∈ worker.waiting)
    (hprofiles : other.profiles = worker.profiles)
    (hresults : other.profileResults = worker.profileResults)
    (hstream : worker.streamBuffer.isSome = true → other.streamBuffer = worker.streamBuffer) :
    Moved s { s with worker := some other, pendingPlotAppends := appends } := by
  let moved : RawCaptureReplay := { s with worker := some other, pendingPlotAppends := appends }
  have hsame : SamePosition s moved := by
    refine ⟨⟨rfl, rfl, rfl, rfl, rfl, rfl, rfl, rfl, rfl⟩, rfl, rfl, rfl, rfl, rfl, rfl, rfl, ?_⟩
    rw [hworker]
    rfl
  have hdropped : moved.dropped = [] := h.dropped
  have hunapplied : moved.unapplied ⊆ s.unapplied := by
    intro i hi
    rw [mem_unapplied hdropped] at hi
    rw [mem_unapplied h.dropped, workerEvents_of hworker]
    obtain hmem | hmem := hi
    · rw [workerEvents_of rfl] at hmem
      exact .inl (hevents hmem)
    · exact happends i hmem
  refine h.moved hsame rfl rfl ?_ ?_ hunapplied ?_ ?_ ?_ ?_
  · intro worker hmem
    cases hmem
    exact hwf
  · rw [workerEvents_of hworker, workerEvents_of rfl]
    exact hevents
  · rw [waiting_of hworker, waiting_of rfl]
    exact hload
  · rw [profiles_of hworker, profiles_of rfl]
    exact hprofiles
  · rw [profileResults_of hworker, profileResults_of rfl]
    exact hresults
  · rw [streamBuffer_of hworker, streamBuffer_of rfl]
    exact hstream

/-- The appends of before, or fewer. -/
theorem Pipeline.withAppends (h : s.Pipeline) (appends : List (Option ℕ))
    (happends : ∀ i, some i ∈ appends → some i ∈ s.pendingPlotAppends) :
    Moved s { s with pendingPlotAppends := appends } := by
  let moved : RawCaptureReplay := { s with pendingPlotAppends := appends }
  have hsame : SamePosition s moved :=
    ⟨⟨rfl, rfl, rfl, rfl, rfl, rfl, rfl, rfl, rfl⟩, rfl, rfl, rfl, rfl, rfl, rfl, rfl, rfl⟩
  have hdropped : moved.dropped = [] := h.dropped
  refine h.moved hsame rfl rfl h.worker (List.Subset.refl _) ?_ id rfl rfl (fun _ => rfl)
  intro i hi
  rw [mem_unapplied hdropped] at hi
  rw [mem_unapplied h.dropped]
  exact hi.imp id (happends i)

theorem takeCommand_moved (h : s.Pipeline) (hworker : s.worker = some worker) :
    Moved s (s.takeCommand worker) := by
  have hwf := h.worker worker hworker
  unfold takeCommand
  split
  · rename_i command commands hexecuting hcommands
    have hwaiting : ({ worker with
        commands := commands, executing := some (command, .taken) } : OfflineWorker).waiting =
          worker.waiting := by
      unfold OfflineWorker.waiting OfflineWorker.taken
      rw [hexecuting, hcommands]
      rfl
    have hmem : ∀ i, i ∈ ({ worker with
        commands := commands, executing := some (command, .taken) } : OfflineWorker).events →
          i ∈ worker.events := by
      intro i
      unfold OfflineWorker.events
      rw [hexecuting, hcommands]
      simp only [List.mem_append, List.mem_filterMap, Option.toList, List.mem_cons, List.not_mem_nil,
        or_false, exists_eq_left, false_and, exists_false]
      grind
    refine h.withWorker hworker s.pendingPlotAppends ⟨?_, ?_, hwf.stream, ?_⟩ hmem
      (fun _ => .inr) ?_ ?_ rfl (fun _ => rfl)
    · rw [hwaiting]
      exact hwf.loads
    · rw [hwaiting]
      exact hwf.host
    · intro command batch heq
      cases heq
    · rw [hwaiting]
      exact id
    · unfold OfflineWorker.profiles
      rw [hwaiting]
  · exact Moved.refl h

theorem publishExecuted_moved (h : s.Pipeline) (hworker : s.worker = some worker) :
    Moved s (s.publishExecuted worker) := by
  have hwf := h.worker worker hworker
  unfold publishExecuted
  split
  · rename_i command batch hexecuting
    have hwaiting : ({ worker with
        outputs := worker.outputs ++ batch.toList
        executing := some (command, .published) } : OfflineWorker).waiting = worker.waiting := by
      unfold OfflineWorker.waiting OfflineWorker.taken
      rw [hexecuting]
    have hmem : ∀ i, i ∈ ({ worker with
        outputs := worker.outputs ++ batch.toList
        executing := some (command, .published) } : OfflineWorker).events → i ∈ worker.events := by
      intro i
      unfold OfflineWorker.events
      rw [hexecuting]
      cases batch with
      | none =>
        rw [Option.toList_none, List.append_nil]
        exact id
      | some batch =>
        have hbatch := hwf.batch command batch hexecuting
        simp only [List.mem_append, List.mem_filterMap, Option.toList, List.mem_cons,
          List.not_mem_nil, or_false, exists_eq_left]
        grind
    refine h.withWorker hworker s.pendingPlotAppends ⟨?_, ?_, hwf.stream, ?_⟩ hmem
      (fun _ => .inr) ?_ ?_ rfl (fun _ => rfl)
    · rw [hwaiting]
      exact hwf.loads
    · rw [hwaiting]
      exact hwf.host
    · intro command batch heq
      cases heq
    · rw [hwaiting]
      exact id
    · unfold OfflineWorker.profiles
      rw [hwaiting]
  · exact Moved.refl h

theorem finishPublished_moved (h : s.Pipeline) (hworker : s.worker = some worker) :
    Moved s (s.finishPublished worker) := by
  have hwf := h.worker worker hworker
  unfold finishPublished
  split
  · rename_i command hexecuting
    have hwaiting : ({ worker with
        executing := none
        streamBuffer := worker.hostBuffer } : OfflineWorker).waiting = worker.waiting := by
      unfold OfflineWorker.waiting OfflineWorker.taken
      rw [hexecuting]
    have hmem : ∀ i, i ∈ ({ worker with
        executing := none
        streamBuffer := worker.hostBuffer } : OfflineWorker).events → i ∈ worker.events := by
      intro i
      unfold OfflineWorker.events
      simp only [List.mem_append, Option.toList, List.filterMap_nil, List.not_mem_nil, or_false]
      exact Or.imp_left .inl
    refine h.withWorker hworker s.pendingPlotAppends ⟨?_, ?_, (fun _ => rfl), ?_⟩ hmem
      (fun _ => .inr) ?_ ?_ rfl (fun hsome => (hwf.stream hsome).symm)
    · rw [hwaiting]
      exact hwf.loads
    · rw [hwaiting]
      exact hwf.host
    · intro command batch heq
      cases heq
    · rw [hwaiting]
      exact id
    · unfold OfflineWorker.profiles
      rw [hwaiting]
  · exact Moved.refl h

theorem waiting_of_taken {command : OfflineCommand} (h : worker.executing = some (command, .taken))
    : worker.waiting = command :: worker.commands := by
  unfold OfflineWorker.waiting OfflineWorker.taken
  rw [h]
  rfl

/-- The command that was taken has run. -/
theorem wf_executed (h : worker.Wf) (other : OfflineWorker) {command : OfflineCommand}
    {batch : Option WorkerBatch} (htaken : worker.executing = some (command, .taken))
    (hexecuting : other.executing = some (command, .executed batch))
    (hcommands : other.commands = worker.commands)
    (hbatch : ∀ output ∈ batch, output.event = command.rxEvent?)
    (hstream : other.streamBuffer.isSome = true → other.streamBuffer = other.hostBuffer) :
    other.Wf ∧ other.waiting = worker.commands := by
  have hwaiting : other.waiting = worker.commands := by
    unfold OfflineWorker.waiting OfflineWorker.taken
    rw [hexecuting, hcommands]
    rfl
  have hload : .load ∉ worker.commands := by
    have hloads := h.loads
    rw [waiting_of_taken htaken] at hloads
    exact hloads
  refine ⟨⟨?_, ?_, hstream, ?_⟩, hwaiting⟩
  · rw [hwaiting]
    exact fun hmem => hload (List.mem_of_mem_tail hmem)
  · rw [hwaiting]
    exact fun _ => hload
  · intro command' output heq
    rw [hexecuting] at heq
    cases heq
    exact hbatch output rfl

theorem executeLoad_moved (h : s.Pipeline) (hworker : s.worker = some worker)
    (htaken : worker.executing = some (.load, .taken)) (ok : Bool)
    (buffer : Option Scripting.StreamBufferDefinition) (plotAppends : Option ℕ) :
    Moved s (s.executeCommand ok buffer plotAppends .load worker) := by
  have hwf := h.worker worker hworker
  have hwaiting := waiting_of_taken htaken
  have hevents : worker.events = [] := by
    rw [← workerEvents_of hworker]
    refine h.loading ?_
    rw [waiting_of hworker, hwaiting]
    exact List.mem_cons_self
  have hnone : worker.commands.filterMap OfflineCommand.rxEvent? = [] := by
    unfold OfflineWorker.events at hevents
    exact (List.append_eq_nil_iff.mp (List.append_eq_nil_iff.mp hevents).1).1
  -- Nothing received is queued, so loading keeps the queue.
  have hqueue : (worker.commands.filter fun command => command.rxEvent?.isNone) = worker.commands := by
    rw [List.filter_eq_self]
    intro command hcommand
    rw [List.filterMap_eq_nil_iff.mp hnone command hcommand]
    rfl
  have hbatch : ∀ output ∈ plotAppends.map (WorkerBatch.mk none), output.event = none := by
    intro output houtput
    obtain ⟨count, -, rfl⟩ := Option.map_eq_some_iff.mp houtput
    rfl
  have hstream : worker.streamBuffer.isSome = true → worker.streamBuffer = buffer := by
    intro hsome
    have hhost := hwf.stream hsome
    have hload := hwf.host (hhost ▸ hsome)
    rw [hwaiting] at hload
    exact absurd List.mem_cons_self hload
  unfold executeCommand
  rw [hnone, hqueue, List.append_nil]
  obtain ⟨hother, hwaiting'⟩ := wf_executed hwf { worker with
      commands := worker.commands
      pendingRxBytes := worker.pendingRxBytes - (worker.commands.map OfflineCommand.rxSize).sum
      executing := some (.load, .executed (plotAppends.map (WorkerBatch.mk none)))
      loadResult := some ok
      hostBuffer := buffer } htaken rfl rfl hbatch hstream
  refine h.withWorker hworker s.pendingPlotAppends hother ?_ (fun _ => .inr) ?_ ?_ rfl (fun _ => rfl)
  · intro i
    unfold OfflineWorker.events
    rw [htaken]
    exact id
  · rw [hwaiting', hwaiting]
    exact List.mem_cons_of_mem _
  · unfold OfflineWorker.profiles
    rw [hwaiting', hwaiting]
    rfl

theorem executeBytes_moved (h : s.Pipeline) (hworker : s.worker = some worker) {event size : ℕ}
    (htaken : worker.executing = some (.bytes event size, .taken)) (ok : Bool)
    (buffer : Option Scripting.StreamBufferDefinition) (plotAppends : Option ℕ) :
    Moved s (s.executeCommand ok buffer plotAppends (.bytes event size) worker) := by
  have hwf := h.worker worker hworker
  have hwaiting := waiting_of_taken htaken
  have hbatch : ∀ output ∈ plotAppends.map (WorkerBatch.mk (some event)), output.event = some event := by
    intro output houtput
    obtain ⟨count, -, rfl⟩ := Option.map_eq_some_iff.mp houtput
    rfl
  unfold executeCommand
  obtain ⟨hother, hwaiting'⟩ := wf_executed hwf { worker with
      pendingRxBytes := worker.pendingRxBytes - size
      executing := some (.bytes event size,
        .executed (plotAppends.map (WorkerBatch.mk (some event)))) } htaken rfl rfl hbatch hwf.stream
  refine h.withWorker hworker s.pendingPlotAppends hother ?_ (fun _ => .inr) ?_ ?_ rfl (fun _ => rfl)
  · intro i
    unfold OfflineWorker.events
    rw [htaken]
    exact id
  · rw [hwaiting', hwaiting]
    exact List.mem_cons_of_mem _
  · unfold OfflineWorker.profiles
    rw [hwaiting', hwaiting]
    rfl

/-- A profile takes effect with nothing received on the way. -/
theorem executeProfile_moved (h : s.Pipeline) (hworker : s.worker = some worker) {event : ℕ}
    (htaken : worker.executing = some (.profile event, .taken)) (ok : Bool)
    (buffer : Option Scripting.StreamBufferDefinition) (plotAppends : Option ℕ) :
    Moved s (s.executeCommand ok buffer plotAppends (.profile event) worker) := by
  have hwf := h.worker worker hworker
  have hwaiting := waiting_of_taken htaken
  have hbatch : ∀ output ∈ plotAppends.map (WorkerBatch.mk none), output.event = none := by
    intro output houtput
    obtain ⟨count, -, rfl⟩ := Option.map_eq_some_iff.mp houtput
    rfl
  have hsame := executeCommand_same ok buffer plotAppends (.profile event) hworker
  let other : OfflineWorker :=
    { worker with
      executing := some (.profile event, .executed (plotAppends.map (WorkerBatch.mk none)))
      profileResults := worker.profileResults ++ [(event, ok)] }
  obtain ⟨hother, hwaiting'⟩ := wf_executed hwf other htaken rfl rfl hbatch hwf.stream
  let t := s.executeCommand ok buffer plotAppends (.profile event) worker
  have hworker' : t.worker = some other := rfl
  -- The profile was the first that waits; the others come after it.
  have hprofiles : s.profiles = event :: t.profiles := by
    rw [profiles_of hworker, profiles_of hworker']
    unfold OfflineWorker.profiles
    rw [hwaiting', hwaiting]
    rfl
  have hmem : ∀ i ∈ t.profiles, i ∈ s.profiles := by
    intro i hi
    rw [hprofiles]
    exact List.mem_cons_of_mem _ hi
  have hresults : t.profileResults = s.profileResults ++ [(event, ok)] := by
    rw [profileResults_of hworker, profileResults_of hworker']
  obtain ⟨hlt, hunapplied, hposted⟩ := h.ahead event (by rw [hprofiles]; exact List.mem_cons_self)
  have hincreasing := h.increasing
  rw [hprofiles, List.pairwise_cons] at hincreasing
  have hevents : t.workerEvents = s.workerEvents := by
    rw [workerEvents_of hworker, workerEvents_of hworker']
    unfold OfflineWorker.events
    rw [htaken]
    rfl
  have hunapplied' : t.unapplied = [] := by
    unfold unapplied at hunapplied ⊢
    rw [hevents]
    exact hunapplied
  refine ⟨hsame, ⟨?_, h.dropped, ?_, ?_, h.posted, hincreasing.2, ?_, ?_, ?_, ?_⟩, ?_, ?_, ?_, ?_⟩
  · intro hbrowse
    have hnone := (h.browse hbrowse).1
    rw [hworker] at hnone
    cases hnone
  · intro worker hmem
    cases hmem
    exact hother
  · intro hload
    rw [hevents]
    refine h.loading ?_
    rw [waiting_of hworker'] at hload
    rw [waiting_of hworker, hwaiting]
    exact List.mem_cons_of_mem _ (hwaiting' ▸ hload)
  · intro result hresult
    rw [hresults, List.mem_append, List.mem_singleton] at hresult
    obtain hresult | rfl := hresult
    · exact h.results result hresult
    · exact hlt
  · intro i hi
    have hfence := h.fence i (by rw [hprofiles, List.getLast?_cons, hi]; rfl)
    refine ⟨hfence.1, ?_⟩
    have hne : (i == event) = false :=
      beq_false_of_ne (Nat.ne_of_gt (hincreasing.1 i (List.mem_of_getLast? hi)))
    rw [hresults, List.lookup_append, hfence.2, List.lookup_cons, hne]
    rfl
  · intro i hi
    obtain ⟨hlt, -, hposted⟩ := h.ahead i (hmem i hi)
    exact ⟨hlt, hunapplied', hposted⟩
  · intro effect heffect
    obtain heffect | heffect := List.mem_append.mp heffect
    · exact h.effects effect heffect
    · rw [List.mem_singleton] at heffect
      rw [heffect]
      refine ⟨fun j hj => ?_, fun j hj => Nat.not_lt_of_lt (hposted j hj)⟩
      rw [show (s.controlEffect event).unapplied = [] from hunapplied] at hj
      cases hj
  · intro _
    rw [streamBuffer_of hworker, streamBuffer_of hworker']
  · intro hload
    rw [waiting_of hworker'] at hload
    rw [waiting_of hworker, hwaiting]
    exact List.mem_cons_of_mem _ (hwaiting' ▸ hload)
  · rw [show (s.executeCommand ok buffer plotAppends (.profile event) worker).unapplied = [] from
      hunapplied']
    exact List.nil_subset _
  · rw [hprofiles]
    exact List.suffix_cons _ _

theorem workerStep_moved (h : s.Pipeline) (move : WorkerMove) : Moved s (s.workerStep move) := by
  unfold workerStep
  split
  · exact Moved.refl h
  · rename_i worker hworker
    cases move with
    | take => exact takeCommand_moved h hworker
    | publish => exact publishExecuted_moved h hworker
    | finish => exact finishPublished_moved h hworker
    | execute ok buffer plotAppends =>
      show Moved s (s.executeTaken ok buffer plotAppends worker)
      unfold executeTaken
      split
      · rename_i command htaken
        cases command with
        | load => exact executeLoad_moved h hworker htaken ok buffer plotAppends
        | bytes event size => exact executeBytes_moved h hworker htaken ok buffer plotAppends
        | profile event => exact executeProfile_moved h hworker htaken ok buffer plotAppends
      · exact Moved.refl h

theorem workerRun_moved (moves : List WorkerMove) (h : s.Pipeline) :
    Moved s (s.workerRun moves) := by
  induction moves generalizing s with
  | nil => exact Moved.refl h
  | cons move moves ih =>
    have hstep := workerStep_moved h move
    exact hstep.trans (ih hstep.pipeline)

/-! ### Flushes -/

theorem keepMarked_subset {α : Type} (marks : List Bool) (items : List α) :
    keepMarked marks items ⊆ items := by
  induction marks generalizing items with
  | nil => cases items <;> exact List.nil_subset _
  | cons mark marks ih =>
    cases items with
    | nil => exact List.nil_subset _
    | cons item items =>
      unfold keepMarked
      split
      · exact List.cons_subset_cons item (ih items)
      · exact List.subset_cons_of_subset item (ih items)

theorem drainOneOutput_moved (kept : List Bool) (h : s.Pipeline) :
    Moved s (s.drainOneOutput kept) := by
  unfold drainOneOutput
  split
  · exact Moved.refl h
  · rename_i worker hworker
    have hwf := h.worker worker hworker
    split
    · exact Moved.refl h
    · rename_i batch outputs houtputs
      refine h.withWorker hworker _ ⟨hwf.loads, hwf.host, hwf.stream, hwf.batch⟩ ?_ ?_ id rfl rfl
        (fun _ => rfl)
      · intro i
        unfold OfflineWorker.events
        rw [houtputs]
        simp only [List.mem_append, List.mem_filterMap, List.mem_cons]
        grind
      · intro i hi
        split at hi
        · obtain hmem | hmem := List.mem_append.mp (keepMarked_subset kept _ hi)
          · exact .inr hmem
          · left
            have hbatch := (List.mem_replicate.mp hmem).2
            unfold OfflineWorker.events
            rw [houtputs]
            simp only [List.mem_append, List.mem_filterMap, List.mem_cons]
            exact .inr ⟨batch, .inl rfl, hbatch.symm⟩
        · exact .inr hi

theorem consumePlotAppends_moved (kept : List Bool) (h : s.Pipeline) :
    Moved s (s.consumePlotAppends kept) := by
  refine h.withAppends _ fun i hi => ?_
  split at hi
  · exact keepMarked_subset kept _ hi
  · exact hi

theorem flush_moved (flush : Flush) (h : s.Pipeline) :
    Moved s (s.flushOfflineScriptOutputs flush) := by
  have hbatches : ∀ (batches : List (List WorkerMove × List Bool)) {s : RawCaptureReplay},
      s.Pipeline →
        Moved s (batches.foldl (fun s batch => drainOneOutput batch.2 (s.workerRun batch.1)) s) := by
    intro batches
    induction batches with
    | nil => exact Moved.refl
    | cons batch batches ih =>
      intro s h
      have hrun := workerRun_moved batch.1 h
      have hdrain := drainOneOutput_moved batch.2 hrun.pipeline
      exact (hrun.trans hdrain).trans (ih hdrain.pipeline)
  have hconsume := consumePlotAppends_moved flush.kept h
  exact hconsume.trans (hbatches _ hconsume.pipeline)

end RawCaptureReplay

end ProtoScope.App
