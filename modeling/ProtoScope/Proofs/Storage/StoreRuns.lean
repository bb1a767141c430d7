/-
The store over whole runs.

Beside the books, three things are kept: each task is unfinished or has its completion, a
fault stands from the failure of a batch to the next start, and every phase of the writer
knows what it needs.  The threads alone finish whatever is queued.
-/
import ProtoScope.Proofs.Storage.StoreBooks

namespace ProtoScope.Storage.Store

open ProtoScope.Data

/-! ### Tasks -/

def Command.key (command : Command) : ℕ × Operation := (command.task, command.operation)

def ReadCommand.key (command : ReadCommand) : ℕ × Operation := (command.task, command.operation)

def Completion.key (completion : Completion) : ℕ × Operation := (completion.task, completion.operation)

def others (commands : List Command) : List Command :=
  commands.filter fun command => command.operation ≠ .publish

def Reader.inProgress : Reader → List ReadCommand
  | .running command => [command]
  | _ => []

/-- The tasks that have no completion yet. -/
def unfinished (impl : Impl) : List (ℕ × Operation) :=
  (others (impl.writer.inProgress ++ impl.writes)).map Command.key ++
    (impl.reader.inProgress ++ impl.reads).map ReadCommand.key

structure Tasks (s : System) : Prop where
  pending : s.store.pendingTasks = s.tasks.length - s.returned.length
  /-- every task is unfinished, or has one completion, which may have been returned -/
  perm : ((s.returned ++ s.store.completions).map Completion.key ++ unfinished s.store).Perm s.tasks
  below : ∀ task ∈ s.tasks, task.1 < s.store.nextTask
  nodup : (s.tasks.map Prod.fst).Nodup

variable {log : List Entry} {impl : Impl}

/-- The part of a store its tasks depend on. -/
theorem Tasks.congr {s : System} (h : Tasks s) {store : Impl} {accepted : List Command}
    (hpending : store.pendingTasks = s.store.pendingTasks)
    (hnextTask : store.nextTask = s.store.nextTask)
    (hperm : (store.completions.map Completion.key ++ unfinished store).Perm (s.store.completions.map Completion.key ++ unfinished s.store))
    :
    Tasks { s with store, log, accepted } where
  pending := hpending.trans h.pending
  perm := by
    dsimp only
    rw [List.map_append, List.append_assoc]
    refine (hperm.append_left _).trans ?_
    rw [← List.append_assoc, ← List.map_append]
    exact h.perm
  below := by
    dsimp only
    rw [hnextTask]
    exact h.below
  nodup := h.nodup

theorem others_append (commands more : List Command) :
    others (commands ++ more) = others commands ++ others more :=
  List.filter_append ..

theorem Quiet.unfinished {impl' : Impl} (h : Quiet impl impl') :
    Store.unfinished impl' = Store.unfinished impl := by
  unfold Store.unfinished
  rw [h.inProgress, h.writes, h.reader, h.reads]

/-- The reader has fields of its own. -/
theorem readerTurn_frame (outcome : Option Failure) (impl : Impl) :
    ∃ reads completions pendingExportBytes reading reader,
      readerTurn outcome impl =
        { impl with reads, completions, pendingExportBytes, reading, reader } ∧
      ((impl.reader = .ended → impl.stopping = true ∧ impl.reads = []) →
        reader = .ended → impl.stopping = true ∧ reads = []) := by
  unfold readerTurn
  split
  · split
    · rename_i hreads
      split
      · rename_i hstopping
        exact ⟨_, _, _, _, _, rfl, fun _ _ => ⟨hstopping, hreads⟩⟩
      · exact ⟨_, _, _, _, _, rfl, fun hended => hended⟩
    · exact ⟨_, _, _, _, _, rfl, fun _ hended => nomatch hended⟩
  · exact ⟨_, _, _, _, _, rfl, fun _ hended => nomatch hended⟩
  · exact ⟨_, _, _, _, _, rfl, fun hended => hended⟩

namespace Tasks

variable {s : System}

theorem quiet (h : Tasks s) {store : Impl} (hquiet : Quiet s.store store) (log : List Entry)
    (accepted : List Command) : Tasks { s with store, log, accepted } := by
  refine h.congr hquiet.pendingTasks hquiet.nextTask ?_
  rw [hquiet.completions, hquiet.unfinished]

theorem take (h : Tasks s) (config : Config) {front : Command} {writes : List Command}
    (hwriter : s.store.writer = .waiting) (hwrites : s.store.writes = front :: writes)
    (log : List Entry) : Tasks { s with store := Store.take config front writes s.store, log } := by
  have hunfinished : unfinished (Store.take config front writes s.store) = unfinished s.store := by
    unfold unfinished
    rw [hwriter, hwrites, ← (takeBatch_spec config.batchRows front writes).1]
    rfl
  refine h.congr rfl rfl ?_
  rw [hunfinished]
  rfl

theorem append (h : Tasks s) {batch : List Command} (hwriter : s.store.writer = .appending batch)
    (log : List Entry) :
    Tasks { s with
      store :=
        { s.store with
          volumes := s.store.volumes.append (recordsOf batch)
          writer := .settling batch "" }
      log } := by
  refine h.congr rfl rfl ?_
  unfold unfinished
  rw [hwriter]
  rfl

/-- A settled command gets its completion. -/
theorem settle (h : Tasks s) {batch : List Command} {error : String}
    (hwriter : s.store.writer = .settling batch error) (log : List Entry) :
    Tasks { s with store := Store.settle batch error s.store, log } := by
  obtain ⟨hwrites, hreads, hreader, hpending, hnextTask, -, -, -, -, -, -, hcompletions,
    hprogress, -⟩ := Books.settle_counts batch error s.store
  refine h.congr hpending hnextTask ?_
  have hkeys : ((batch.filter fun command => command.operation ≠ .publish).map fun command =>
      ({ task := command.task, operation := command.operation, ok := error = "", error } :
        Completion)).map Completion.key = (others batch).map Command.key := by
    rw [List.map_map]
    rfl
  have hown : (Writer.settling batch error).inProgress = batch := rfl
  unfold unfinished
  rw [hcompletions, List.map_append, hkeys, hprogress, hwrites, hreads, hreader, hwriter, hown,
    others_append batch, List.nil_append]
  simp only [List.map_append, List.append_assoc]
  exact .refl _

theorem abandon (h : Tasks s) (failure : Failure) (hwriter : s.store.writer = .opening)
    (log : List Entry) : Tasks { s with store := Store.abandon failure s.store, log } := by
  refine h.congr rfl rfl ?_
  have hkeys : ((s.store.writes.filter fun command => command.operation ≠ .publish).map fun command =>
      ({ task := command.task, operation := command.operation, ok := false, error := failure.message } :
        Completion)).map Completion.key = (others s.store.writes).map Command.key := by
    rw [List.map_map]
    rfl
  unfold unfinished
  rw [hwriter]
  show ((s.store.completions ++ _).map Completion.key ++ ([] ++ _)).Perm _
  rw [List.map_append, hkeys, List.nil_append, List.append_assoc]
  exact .refl _

/-- A new task, unfinished. -/
theorem accept (h : Tasks s) {store : Impl} {operation : Operation} (accepted : List Command)
    (hpending : store.pendingTasks = s.store.pendingTasks + 1)
    (hnextTask : store.nextTask = s.store.nextTask + 1)
    (hcompletions : store.completions = s.store.completions)
    (hunfinished : (unfinished store).Perm (unfinished s.store ++ [(s.store.nextTask, operation)])) :
    Tasks { s with store, accepted, tasks := s.tasks ++ [(s.store.nextTask, operation)] } := by
  constructor <;> dsimp only
  · rw [hpending, h.pending, List.length_append]
    push_cast
    rw [List.length_singleton]
    omega
  · rw [hcompletions]
    refine (hunfinished.append_left _).trans ?_
    rw [← List.append_assoc]
    exact h.perm.append_right _
  · intro task hmem
    rw [hnextTask]
    rcases List.mem_append.mp hmem with hmem | hmem
    · exact Nat.lt_succ_of_lt (h.below task hmem)
    · rw [List.mem_singleton.mp hmem]
      exact Nat.lt_succ_self _
  · rw [List.map_append, List.nodup_append]
    refine ⟨h.nodup, List.nodup_cons.mpr ⟨List.not_mem_nil, List.nodup_nil⟩, ?_⟩
    intro a ha b hb
    obtain ⟨task, hmem, rfl⟩ := List.mem_map.mp ha
    rw [List.mem_singleton.mp hb]
    exact Nat.ne_of_lt (h.below task hmem)

theorem poll (h : Tasks s) :
    Tasks { s with
      store := (Store.poll s.store).1
      returned := s.returned ++ s.store.completions } := by
  constructor
  · show s.store.pendingTasks - (s.store.completions.length : ℤ) =
      s.tasks.length - ((s.returned ++ s.store.completions).length : ℤ)
    rw [h.pending, List.length_append]
    push_cast
    omega
  · show (((s.returned ++ s.store.completions) ++ []).map Completion.key ++ unfinished s.store).Perm
      s.tasks
    rw [List.append_nil]
    exact h.perm
  · exact h.below
  · exact h.nodup

/-- A request the reader answers gets its completion. -/
theorem reader (h : Tasks s) (outcome : Option Failure) :
    Tasks { s with store := readerTurn outcome s.store } := by
  obtain ⟨⟨writes, reads, completions, pendingTasks, pendingQueries, pendingExportBytes, queuedRows,
    nextTask, status, stopping, writing, reading, dirty, volumes, writer, reader⟩, accepted, tasks,
    returned, log⟩ := s
  cases reader with
  | waiting =>
    cases reads with
    | nil =>
      dsimp only [readerTurn]
      split
      · exact h.congr rfl rfl (.refl _)
      · exact h
    | cons command reads => exact h.congr rfl rfl (.refl _)
  | running command =>
    refine h.congr rfl rfl ?_
    show ((completions ++ [_]).map Completion.key ++ unfinished _).Perm _
    unfold unfinished
    rw [List.map_append]
    simp only [Reader.inProgress, List.singleton_append, List.map_cons, List.map_nil,
      List.append_assoc]
    exact List.perm_middle.symm.append_left _
  | ended => exact h

end Tasks

/-! ### Faults -/

/-- Whether a batch has failed since the last start. -/
def openFailure (log : List Entry) : Bool :=
  log.foldl (fun failed entry =>
    match entry with
    | .committed _ => failed
    | .failed _ => true
    | .started => false) false

theorem openFailure_append_committed (log : List Entry) (batch : List Command) :
    openFailure (log ++ [.committed batch]) = openFailure log := by
  simp [openFailure]

theorem openFailure_append_failed (log : List Entry) (batch : List Command) :
    openFailure (log ++ [.failed batch]) = true := by
  simp [openFailure]

theorem openFailure_append_started (log : List Entry) : openFailure (log ++ [.started]) = false := by
  simp [openFailure]

/-- A fault has a message, and stands while a failure is open. -/
structure Standing (log : List Entry) (status : Status) : Prop where
  error : status.faulted = true → status.error ≠ ""
  blocked : openFailure log = true → status.faulted = true

theorem Standing.fault {status : Status} (hfaulted : status.faulted = true)
    (herror : status.error ≠ "") : Standing log status :=
  ⟨fun _ => herror, fun _ => hfaulted⟩

theorem Standing.maintain (h : Standing log impl.status) (outcome : Option Failure) :
    Standing log (maintain outcome impl).status := by
  cases outcome with
  | none => exact h
  | some failure => exact .fault rfl failure.nonempty

/-- Batches are only committed where no failure is open. -/
def Ordered (log : List Entry) : Prop :=
  ∀ prior batch later, log = prior ++ .committed batch :: later → openFailure prior = false

theorem Ordered.append (h : Ordered log) {entry : Entry}
    (hentry : ∀ batch, entry = .committed batch → openFailure log = false) :
    Ordered (log ++ [entry]) := by
  intro prior batch later heq
  rcases List.eq_nil_or_concat later with rfl | ⟨later, last, rfl⟩
  · obtain ⟨hprior, hlast⟩ := List.append_inj' heq rfl
    rw [← hprior]
    exact hentry batch (List.singleton_inj.mp hlast)
  · have hconcat : log ++ [entry] = (prior ++ .committed batch :: later) ++ [last] := by
      simpa using heq
    obtain ⟨hlog, -⟩ := List.append_inj' hconcat rfl
    exact h prior batch later hlog

/-- What the writer's phase knows of the log. -/
def Writer.Clear (log : List Entry) : Writer → Prop
  | .appending _ => openFailure log = false
  | .settling batch error => publishing batch = true → error = "" → openFailure log = false
  | _ => True

/-- What the writer and the log keep. -/
structure Guarded (log : List Entry) (impl : Impl) : Prop where
  standing : Standing log impl.status
  ordered : Ordered log
  clear : impl.writer.Clear log
  sound : impl.writer.Sound impl.stopping impl.writes

theorem Guarded.phase (h : Guarded log impl) {writer : Writer} (hclear : writer.Clear log)
    (hsound : writer.Sound impl.stopping impl.writes) : Guarded log { impl with writer } :=
  ⟨h.standing, h.ordered, hclear, hsound⟩

theorem Guarded.continueWith (h : Guarded log impl) (next : AfterPersist)
    (hsound : (Writer.persisting next).Sound impl.stopping impl.writes) :
    Guarded log (continueWith next impl) := by
  cases next with
  | maintain active =>
    cases active with
    | false => exact h.phase trivial trivial
    | true => exact h.phase trivial trivial
  | session command => exact h.phase trivial hsound
  | finish => exact h.phase trivial trivial

theorem Guarded.persistFault (h : Guarded log impl) (next : AfterPersist)
    (hsound : (Writer.persisting next).Sound impl.stopping impl.writes) :
    Guarded log (persistFault next impl) := by
  have hclean : Guarded log { impl with faultMetadataDirty := false } :=
    ⟨h.standing, h.ordered, h.clear, h.sound⟩
  unfold Store.persistFault
  split
  · split
    · have hclear : (Writer.faulting next).Clear log := trivial
      refine hclean.phase hclear ?_
      cases next with
      | maintain active => trivial
      | session command => exact hsound
      | finish => trivial
    · exact hclean.continueWith next hsound
  · exact h.continueWith next hsound

theorem Guarded.settle (h : Guarded log impl) (outcome : Option Failure) {batch : List Command}
    {error : String} (hwriter : impl.writer = .settling batch error) :
    Guarded (log ++ decided outcome impl) (Store.settle batch error impl) := by
  have hclear := h.clear
  rw [hwriter] at hclear
  have hdecided : decided outcome impl =
      if publishing batch then
        if error = "" then [.committed batch] else [.failed batch]
      else [] := by
    unfold decided
    rw [hwriter]
  have hphase : ∀ writer : Writer, (writer = if publishing batch = true ∧ error = "" then
      if rowCount batch = 0 then .maintaining else .committed
      else .persisting .finish) →
        (∀ log, writer.Clear log) ∧ ∀ stopping writes, writer.Sound stopping writes := by
    intro writer heq
    rw [heq]
    split
    · split <;> exact ⟨fun _ => trivial, fun _ _ => trivial⟩
    · exact ⟨fun _ => trivial, fun _ _ => trivial⟩
  obtain ⟨hphaseClear, hphaseSound⟩ := hphase _ rfl
  have hordered : Ordered (log ++ decided outcome impl) := by
    rw [hdecided]
    split
    · rename_i hpublishing
      split
      · rename_i herror
        exact h.ordered.append fun _ _ => hclear hpublishing herror
      · exact h.ordered.append fun _ heq => nomatch heq
    · rw [List.append_nil]
      exact h.ordered
  have hsettled : ∀ status : Status, Standing (log ++ decided outcome impl) status →
      (Store.settle batch error impl).status = status →
        Guarded (log ++ decided outcome impl) (Store.settle batch error impl) := by
    intro status hstanding hstatus
    refine ⟨by rw [hstatus]; exact hstanding, hordered, hphaseClear _, hphaseSound _ _⟩
  by_cases herror : error = ""
  · refine hsettled _ ?_ rfl
    subst herror
    have hopen : openFailure (log ++ decided outcome impl) = openFailure log := by
      rw [hdecided, if_pos rfl]
      split
      · exact openFailure_append_committed log batch
      · rw [List.append_nil]
    refine ⟨h.standing.error, ?_⟩
    rw [hopen]
    exact h.standing.blocked
  · by_cases hfault : (batch.any fun command => command.operation ∈ [.publish, .start, .stop]) = true
    · refine hsettled _ ?_ rfl
      unfold Store.settle
      dsimp only
      rw [if_neg herror, if_pos hfault]
      exact .fault rfl herror
    · refine hsettled _ ?_ rfl
      have hother : ¬ publishing batch = true := by
        intro hpublishing
        apply hfault
        obtain ⟨command, hmem, hoperation⟩ := publishing_iff.mp hpublishing
        rw [List.any_eq_true]
        exact ⟨command, hmem, by simp [hoperation]⟩
      rw [hdecided, if_neg hother, List.append_nil]
      unfold Store.settle
      dsimp only
      rw [if_neg herror, if_neg hfault]
      exact ⟨h.standing.error, h.standing.blocked⟩

theorem Guarded.undecided {impl' : Impl} {outcome : Option Failure} (h : Guarded log impl')
    (hdecided : decided outcome impl = []) : Guarded (log ++ decided outcome impl) impl' := by
  rw [hdecided, List.append_nil]
  exact h

theorem clear_settling {command : Command} (h : command.operation ≠ .publish) (error : String) :
    (Writer.settling [command] error).Clear log := by
  intro hpublishing
  obtain ⟨other, hmem, hoperation⟩ := publishing_iff.mp hpublishing
  rw [List.mem_singleton.mp hmem] at hoperation
  exact absurd hoperation h

/-- **What one turn of the writer keeps.** -/
theorem Guarded.writerTurn (h : Guarded log impl) (config : Config) (outcome : Option Failure) :
    Guarded (log ++ decided outcome impl) (Store.writerTurn config outcome impl) := by
  obtain ⟨writes, _, _, _, _, _, _, _, status, stopping, _, _, _, _, writer, _⟩ := impl
  have hsound := h.sound
  have hclear := h.clear
  dsimp only at hsound hclear
  cases writer with
  | settling batch error => exact h.settle outcome rfl
  | opening =>
    cases outcome with
    | none =>
      refine .undecided ?_ rfl
      exact h.phase trivial trivial
    | some failure =>
      have hordered : Ordered (log ++ [.failed (publications writes)]) :=
        h.ordered.append fun _ heq => nomatch heq
      exact ⟨.fault rfl failure.nonempty, hordered, trivial, rfl, rfl⟩
  | session command =>
    have huniform : Uniform [command] := .inr ⟨command, rfl, hsound⟩
    cases outcome with
    | none =>
      by_cases hstart : command.operation = .start
      · have hdecided : ∀ impl : Impl, impl.writer = .session command →
            decided none impl = [.started] := by
          intro impl hwriter
          unfold decided
          rw [hwriter]
          exact if_pos ⟨hstart, rfl⟩
        rw [hdecided _ rfl]
        have hordered : Ordered (log ++ [.started]) := h.ordered.append fun _ heq => nomatch heq
        dsimp only [Store.writerTurn, switchRecording]
        rw [if_pos hstart]
        have hstanding : Standing (log ++ [.started])
            { status with recording := true, faulted := false, error := "" } := by
          constructor
          · exact fun hfaulted => absurd hfaulted Bool.false_ne_true
          · rw [openFailure_append_started]
            exact fun hopen => absurd hopen Bool.false_ne_true
        exact ⟨hstanding, hordered, clear_settling hsound _, huniform⟩
      · refine .undecided ?_ (if_neg fun hand => hstart hand.1)
        dsimp only [Store.writerTurn, switchRecording]
        rw [if_neg hstart]
        exact ⟨⟨h.standing.error, h.standing.blocked⟩, h.ordered, clear_settling hsound _, huniform⟩
    | some failure =>
      refine .undecided ?_ (if_neg fun hand => nomatch hand.2)
      exact ⟨h.standing, h.ordered, clear_settling hsound _, huniform⟩
  | waiting =>
    refine .undecided ?_ rfl
    cases writes with
    | nil =>
      dsimp only [Store.writerTurn]
      split
      · rename_i hstopping
        exact h.phase trivial ⟨hstopping, rfl⟩
      · exact h.phase trivial trivial
    | cons front writes =>
      exact ⟨h.standing, h.ordered, trivial, (takeBatch_spec config.batchRows front writes).2⟩
  | taken batch =>
    refine .undecided ?_ rfl
    cases batch with
    | nil => exact h
    | cons front rest =>
      dsimp only [Store.writerTurn]
      split
      · rename_i hpublish
        split
        · rename_i hfaulted
          exact h.phase (fun _ herror => absurd herror (h.standing.error hfaulted)) hsound
        · rename_i hunfaulted
          have hclosed : (Writer.appending (front :: rest)).Clear log := by
            show openFailure log = false
            rw [Bool.eq_false_iff]
            exact fun hopen => hunfaulted (h.standing.blocked hopen)
          refine h.phase hclosed ?_
          rcases hsound with hall | ⟨command, hbatch, hother⟩
          · exact hall
          · cases hbatch
            exact absurd hpublish hother
      · rename_i hother
        exact h.phase trivial hother
  | appending batch =>
    refine .undecided ?_ rfl
    cases outcome with
    | none => exact ⟨h.standing, h.ordered, fun _ _ => hclear, .inl hsound⟩
    | some failure => exact h.phase (fun _ _ => hclear) (.inl hsound)
  | executing command =>
    refine .undecided ?_ rfl
    have huniform : Uniform [command] := .inr ⟨command, rfl, hsound⟩
    dsimp only [Store.writerTurn]
    split
    · exact h.phase trivial hsound
    · exact h.phase trivial hsound
    · exact h.phase (clear_settling hsound _) huniform
    · exact h.phase (clear_settling hsound _) huniform
    · exact h.phase (clear_settling hsound _) huniform
  | committed =>
    refine .undecided ?_ rfl
    exact ⟨h.standing.maintain outcome, h.ordered, trivial, trivial⟩
  | maintaining =>
    refine .undecided ?_ rfl
    exact ⟨h.standing.maintain outcome, h.ordered, trivial, trivial⟩
  | persisting next =>
    refine .undecided ?_ rfl
    exact h.persistFault next hsound
  | faulting next =>
    refine .undecided ?_ rfl
    have hpersisting : (Writer.persisting next).Sound stopping writes := by
      cases next with
      | maintain active => trivial
      | session command => exact hsound
      | finish => trivial
    cases outcome with
    | none => exact h.continueWith next hpersisting
    | some failure =>
      have hnonempty : "record fault metadata commit failed: " ++ failure.message ≠ "" := by
        intro hempty
        have hlength := congrArg String.length hempty
        have hpositive : 0 < "record fault metadata commit failed: ".length := by decide
        rw [String.length_append, String.length_empty] at hlength
        omega
      dsimp only [Store.writerTurn]
      apply Guarded.continueWith _ next hpersisting
      exact ⟨⟨fun _ => hnonempty, h.standing.blocked⟩, h.ordered, trivial, hsound⟩
  | idle =>
    refine .undecided ?_ rfl
    exact ⟨h.standing.maintain outcome, h.ordered, trivial, trivial⟩
  | finishing =>
    refine .undecided ?_ rfl
    exact ⟨h.standing, h.ordered, trivial, trivial⟩
  | ended =>
    refine .undecided ?_ rfl
    exact h

/-! ### Steps -/

structure Kept (config : Config) (base : LiveRecords) (s : System) : Prop where
  books : Books base s
  tasks : Tasks s
  guarded : Guarded s.log s.store
  bound : s.store.status.queueBytes ≤ config.queueBytes
  reader : s.store.reader = .ended → s.store.stopping = true ∧ s.store.reads = []

theorem Writer.Sound.running {writer : Writer} {writes : List Command}
    (h : writer.Sound false writes) (writes' : List Command) : writer.Sound false writes' := by
  cases writer with
  | ended => exact absurd h.1 Bool.false_ne_true
  | persisting next => cases next <;> exact h
  | faulting next => cases next <;> exact h
  | _ => exact h

theorem Writer.Sound.stop {writer : Writer} {stopping : Bool} {writes : List Command}
    (h : writer.Sound stopping writes) : writer.Sound true writes := by
  cases writer with
  | ended => exact ⟨rfl, h.2⟩
  | persisting next => cases next <;> exact h
  | faulting next => cases next <;> exact h
  | _ => exact h

section Enqueues

variable {config : Config} {impl impl' : Impl} {command : Command}

theorem Enqueues.unfinished (h : Enqueues config impl impl' command) :
    Store.unfinished impl' =
      (others (impl.writer.inProgress ++ impl.writes)).map Command.key ++
        (others [command]).map Command.key ++
          (impl.reader.inProgress ++ impl.reads).map ReadCommand.key := by
  unfold Store.unfinished
  rw [h.writer, h.writes, h.reader, h.reads, ← List.append_assoc, others_append _ [command],
    List.map_append]

theorem Enqueues.bound (h : Enqueues config impl impl' command) :
    impl'.status.queueBytes ≤ config.queueBytes := by
  rw [h.queueBytes]
  exact h.fits

theorem Enqueues.readerEnded (h : Enqueues config impl impl' command)
    (hreader : impl.reader = .ended → impl.stopping = true ∧ impl.reads = []) :
    impl'.reader = .ended → impl'.stopping = true ∧ impl'.reads = [] := by
  rw [h.reader, h.stopping, h.reads]
  exact hreader

theorem Guarded.enqueue {log : List Entry} (h : Guarded log impl)
    (henqueues : Enqueues config impl impl' command) : Guarded log impl' := by
  have hsound := h.sound
  rw [henqueues.running] at hsound
  refine ⟨⟨?_, ?_⟩, h.ordered, ?_, ?_⟩
  · rw [henqueues.faulted, henqueues.error]
    exact h.standing.error
  · rw [henqueues.faulted]
    exact h.standing.blocked
  · rw [henqueues.writer]
    exact h.clear
  · rw [henqueues.writer, henqueues.stopping, henqueues.running]
    exact hsound.running _

end Enqueues

namespace Kept

variable {config : Config} {base : LiveRecords} {s : System}

theorem publish (h : Kept config base s) (sizes : QueueSizes) (declarations : Declarations)
    (records : List Record) :
    Kept config base (s.step config sizes declarations (.publish records)) := by
  show Kept config base
    { s with
      store := (Store.publish config sizes declarations records s.store).1
      accepted := s.accepted ++
        (Store.publish config sizes declarations records s.store).1.writes.drop s.store.writes.length }
  rcases publish_cases config sizes declarations records s.store with
    ⟨hquiet, hwriter, hfaulted, herror⟩ | ⟨command, hoperation, henqueues, hpending, hnextTask⟩
  · have haccepted : s.accepted ++ (Store.publish config sizes declarations records
        s.store).1.writes.drop s.store.writes.length = s.accepted := by
      rw [hquiet.writes, List.drop_length, List.append_nil]
    rw [haccepted]
    have hbooks := h.books.quiet hquiet (fun entry (hmem : entry ∈ []) => nomatch hmem)
    rw [List.append_nil] at hbooks
    refine ⟨hbooks, h.tasks.quiet hquiet s.log s.accepted, ⟨⟨?_, ?_⟩, h.guarded.ordered, ?_, ?_⟩, ?_, ?_⟩
    · exact herror h.guarded.standing.error
    · exact fun hopen => hfaulted (h.guarded.standing.blocked hopen)
    · rw [hwriter]
      exact h.guarded.clear
    · rw [hwriter, hquiet.stopping, hquiet.writes]
      exact h.guarded.sound
    · rw [hquiet.queueBytes]
      exact h.bound
    · rw [hquiet.reader, hquiet.stopping, hquiet.reads]
      exact h.reader
  · have hpublications : publications [command] = [command] :=
      publications_eq_self fun other hmem => by
        rw [List.mem_singleton.mp hmem]
        exact hoperation
    have hothers : others [command] = [] := by
      simp [others, hoperation]
    have haccepted : (Store.publish config sizes declarations records s.store).1.writes.drop
        s.store.writes.length = publications [command] := by
      rw [henqueues.writes, List.drop_left, hpublications]
    rw [haccepted]
    refine ⟨h.books.enqueue henqueues (fun hother => absurd hoperation hother) s.tasks, ?_,
      h.guarded.enqueue henqueues, ?_, ?_⟩
    · refine h.tasks.congr hpending hnextTask ?_
      rw [henqueues.completions, henqueues.unfinished, hothers, List.map_nil, List.append_nil]
      exact .refl _
    · exact henqueues.bound
    · exact henqueues.readerEnded h.reader

theorem enqueue (h : Kept config base s) (sizes : QueueSizes) (declarations : Declarations)
    (operation : Operation) (bytes : ℕ)
    (allowed : operation ∈ [.start, .stop, .flush, .set, .delete]) :
    Kept config base (s.step config sizes declarations (.enqueue operation bytes allowed)) := by
  have hother : operation ≠ .publish := by
    rintro rfl
    exact absurd allowed (by decide)
  dsimp only [System.step]
  rcases enqueue_cases config operation bytes s.store hother with
    ⟨message, hrefused⟩ | ⟨store, haccepted, henqueues, hpending, hnextTask⟩
  · rw [hrefused]
    exact h
  · rw [haccepted]
    dsimp only
    have hpublications : publications [{ task := s.store.nextTask, operation, bytes }] = [] :=
      publications_singleton hother
    have hbooks := h.books.enqueue henqueues (fun _ => rfl) (s.tasks ++ [(s.store.nextTask, operation)])
    rw [hpublications, List.append_nil] at hbooks
    refine ⟨hbooks, ?_, h.guarded.enqueue henqueues, henqueues.bound, henqueues.readerEnded h.reader⟩
    refine h.tasks.accept s.accepted hpending hnextTask henqueues.completions ?_
    have hothers : (others [({ task := s.store.nextTask, operation, bytes } : Command)]).map Command.key =
        [(s.store.nextTask, operation)] := by
      simp [others, hother, Command.key]
    rw [henqueues.unfinished, hothers, List.append_assoc]
    unfold unfinished
    rw [List.append_assoc]
    exact (List.perm_append_comm).append_left _

theorem request (h : Kept config base s) (sizes : QueueSizes) (declarations : Declarations)
    (operation : Operation) (exportBytes : ℕ)
    (allowed : operation ∈ [.query, .exportRecords, .importRecords]) :
    Kept config base (s.step config sizes declarations (.request operation exportBytes allowed)) := by
  unfold System.step Store.request
  dsimp only
  by_cases hrefused : s.store.stopping = true ∨ 16 ≤ s.store.pendingQueries ∨
      1024 ≤ s.store.pendingTasks ∨
        (config.queueBytes : ℤ) - s.store.pendingExportBytes < exportBytes
  · rw [if_pos hrefused]
    exact h
  · rw [if_neg hrefused]
    dsimp only
    have hrunning : ¬ s.store.stopping = true := fun hstopping => hrefused (.inl hstopping)
    refine ⟨⟨h.books.entire, h.books.queueBytes, h.books.queuedRows, h.books.queued,
      h.books.committed, h.books.rows, h.books.lastId, h.books.plain⟩, ?_,
      ⟨h.guarded.standing, h.guarded.ordered, h.guarded.clear, h.guarded.sound⟩, h.bound, ?_⟩
    · refine h.tasks.accept s.accepted rfl rfl rfl ?_
      unfold unfinished
      simp only [List.map_append, List.append_assoc]
      exact .refl _
    · exact fun hended => absurd (h.reader hended).1 hrunning

theorem poll (h : Kept config base s) (sizes : QueueSizes) (declarations : Declarations) :
    Kept config base (s.step config sizes declarations .poll) :=
  ⟨⟨h.books.entire, h.books.queueBytes, h.books.queuedRows, h.books.queued, h.books.committed,
      h.books.rows, h.books.lastId, h.books.plain⟩, h.tasks.poll,
    ⟨h.guarded.standing, h.guarded.ordered, h.guarded.clear, h.guarded.sound⟩, h.bound, h.reader⟩

theorem close (h : Kept config base s) (sizes : QueueSizes) (declarations : Declarations) :
    Kept config base (s.step config sizes declarations .close) :=
  ⟨⟨h.books.entire, h.books.queueBytes, h.books.queuedRows, h.books.queued, h.books.committed,
      h.books.rows, h.books.lastId, h.books.plain⟩,
    h.tasks.congr rfl rfl (.refl _),
    ⟨h.guarded.standing, h.guarded.ordered, h.guarded.clear, h.guarded.sound.stop⟩, h.bound,
    fun hended => ⟨rfl, (h.reader hended).2⟩⟩

theorem readerTurn (h : Kept config base s) (sizes : QueueSizes) (declarations : Declarations)
    (outcome : Option Failure) :
    Kept config base (s.step config sizes declarations (.reader outcome)) := by
  have htasks := h.tasks.reader outcome
  show Kept config base { s with store := Store.readerTurn outcome s.store }
  obtain ⟨reads, completions, pendingExportBytes, reading, reader, heq, hended⟩ :=
    readerTurn_frame outcome s.store
  rw [heq] at htasks ⊢
  exact ⟨⟨h.books.entire, h.books.queueBytes, h.books.queuedRows, h.books.queued,
    h.books.committed, h.books.rows, h.books.lastId, h.books.plain⟩, htasks,
    ⟨h.guarded.standing, h.guarded.ordered, h.guarded.clear, h.guarded.sound⟩, h.bound,
    hended h.reader⟩

/-- **A turn of the writer keeps everything.** -/
theorem writerTurn (h : Kept config base s) (sizes : QueueSizes) (declarations : Declarations)
    (outcome : Option Failure) :
    Kept config base (s.step config sizes declarations (.writer outcome)) := by
  have hguarded := h.guarded.writerTurn config outcome
  have hsound := h.guarded.sound
  have hturn := writerTurn_turn config outcome hsound h.guarded.standing.error
  show Kept config base
    { s with store := Store.writerTurn config outcome s.store, log := s.log ++ decided outcome s.store }
  generalize Store.writerTurn config outcome s.store = store at hguarded hturn
  cases hturn with
  | quiet hquiet hlog =>
    refine ⟨h.books.quiet hquiet hlog, h.tasks.quiet hquiet _ s.accepted, hguarded, ?_, ?_⟩
    · rw [hquiet.queueBytes]
      exact h.bound
    · rw [hquiet.reader, hquiet.stopping, hquiet.reads]
      exact h.reader
  | takes hwriter hwrites =>
    have hdecided : decided outcome s.store = [] := by
      unfold decided
      rw [hwriter]
    rw [hdecided, List.append_nil] at hguarded ⊢
    exact ⟨h.books.take config hwriter hwrites, h.tasks.take config hwriter hwrites s.log, hguarded,
      h.bound, h.reader⟩
  | @appends batch hwriter =>
    have hdecided : decided outcome s.store = [] := by
      unfold decided
      rw [hwriter]
    rw [hdecided, List.append_nil] at hguarded ⊢
    rw [hwriter] at hsound
    exact ⟨h.books.append hwriter hsound.2, h.tasks.append hwriter s.log, hguarded, h.bound, h.reader⟩
  | @settles batch error hwriter =>
    rw [hwriter] at hsound
    obtain ⟨-, hreads, hreader, -, -, -, -, hstopping, hqueueBytes, -⟩ :=
      Books.settle_counts batch error s.store
    refine ⟨h.books.settle outcome hwriter hsound, h.tasks.settle hwriter _, hguarded, ?_, ?_⟩
    · rw [hqueueBytes]
      exact Int.le_trans (Int.sub_le_self _ (Int.natCast_nonneg _)) h.bound
    · rw [hreader, hreads, hstopping]
      exact h.reader
  | abandons hwriter houtcome =>
    refine ⟨h.books.abandon hwriter houtcome, h.tasks.abandon _ hwriter _, hguarded, ?_, ?_⟩
    · exact Int.natCast_nonneg config.queueBytes
    · exact fun hended => ⟨rfl, (h.reader hended).2⟩

/-- **Every step keeps everything.** -/
theorem step (h : Kept config base s) (sizes : QueueSizes) (declarations : Declarations)
    (event : Event) : Kept config base (s.step config sizes declarations event) := by
  cases event with
  | publish records => exact h.publish sizes declarations records
  | enqueue operation bytes allowed => exact h.enqueue sizes declarations operation bytes allowed
  | request operation bytes allowed => exact h.request sizes declarations operation bytes allowed
  | poll => exact h.poll sizes declarations
  | close => exact h.close sizes declarations
  | writer outcome => exact h.writerTurn sizes declarations outcome
  | reader outcome => exact h.readerTurn sizes declarations outcome

theorem opened (recording : Bool) (volumes : LiveRecords) :
    Kept config volumes (System.opened recording volumes) where
  books := ⟨rfl, rfl, rfl, rfl, rfl, (List.append_nil _).symm, (Int.add_zero _).symm,
    fun _ hmem => nomatch hmem⟩
  tasks := ⟨rfl, .refl _, (fun _ hmem => nomatch hmem), List.nodup_nil⟩
  guarded := by
    have hordered : Ordered [] := fun prior batch later heq => by
      simp at heq
    exact ⟨⟨(fun hfaulted => nomatch hfaulted), (fun hopen => nomatch hopen)⟩, hordered, trivial,
      trivial⟩
  bound := Int.natCast_nonneg config.queueBytes
  reader := fun hended => nomatch hended

/-- **Every run keeps everything.** -/
theorem run (h : Kept config base s) (sizes : QueueSizes) (declarations : Declarations)
    (events : List Event) : Kept config base (s.run config sizes declarations events) := by
  induction events generalizing s with
  | nil => exact h
  | cons event events ih => exact ih (h.step sizes declarations event)

end Kept

end ProtoScope.Storage.Store
