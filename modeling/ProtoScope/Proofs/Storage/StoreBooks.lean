/-
The books of the store.

A turn of the writer does one of five things to its queue: nothing, or it takes a batch,
appends it, settles it, or gives everything up.  From that alone the counters are those of
the queue, the batch in progress and the history, and the live records are the batches that
were committed, in the order of their publication.
-/
import ProtoScope.Storage.Store

namespace ProtoScope.Storage.Store

open ProtoScope.Data

/-! ### What is in progress -/

/-- The commands the writer has taken and not settled. -/
def Writer.inProgress : Writer → List Command
  | .taken batch => batch
  | .appending batch => batch
  | .executing command => [command]
  | .session command => [command]
  | .settling batch _ => batch
  | .persisting (.session command) => [command]
  | .faulting (.session command) => [command]
  | _ => []

/-- The publications whose records are in the volumes, but not counted yet. -/
def Writer.appended : Writer → List Command
  | .settling batch error => if error = "" then publications batch else []
  | _ => []

/-- A batch is a number of publications, or one other command. -/
def Uniform (batch : List Command) : Prop :=
  (batch ≠ [] ∧ ∀ command ∈ batch, command.operation = .publish) ∨
    ∃ command, batch = [command] ∧ command.operation ≠ .publish

/-- What each phase of the writer knows. -/
def Writer.Sound (stopping : Bool) (writes : List Command) : Writer → Prop
  | .taken batch => Uniform batch
  | .appending batch => batch ≠ [] ∧ ∀ command ∈ batch, command.operation = .publish
  | .executing command => command.operation ≠ .publish
  | .session command => command.operation ≠ .publish
  | .settling batch _ => Uniform batch
  | .persisting (.session command) => command.operation ≠ .publish
  | .faulting (.session command) => command.operation ≠ .publish
  | .ended => stopping = true ∧ writes = []
  | _ => True

section Lists

variable {commands others : List Command}

theorem rowCount_append : rowCount (commands ++ others) = rowCount commands + rowCount others := by
  simp [rowCount]

theorem byteCount_append : byteCount (commands ++ others) = byteCount commands + byteCount others := by
  simp [byteCount]

theorem recordsOf_append : recordsOf (commands ++ others) = recordsOf commands ++ recordsOf others :=
  List.flatMap_append

theorem publications_append :
    publications (commands ++ others) = publications commands ++ publications others :=
  List.filter_append ..

theorem publications_eq_self (h : ∀ command ∈ commands, command.operation = .publish) :
    publications commands = commands :=
  List.filter_eq_self.mpr fun command hmem => decide_eq_true (h command hmem)

theorem publications_singleton {command : Command} (h : command.operation ≠ .publish) :
    publications [command] = [] := by
  simp [publications, h]

theorem publishing_iff : publishing commands = true ↔ ∃ command ∈ commands, command.operation = .publish := by
  simp [publishing]

/-- A batch is its publications if it publishes, and has none otherwise. -/
theorem Uniform.publications_eq (h : Uniform commands) :
    publications commands = if publishing commands then commands else [] := by
  rcases h with ⟨hne, hall⟩ | ⟨command, rfl, hother⟩
  · obtain ⟨command, hcommand⟩ := List.exists_mem_of_ne_nil commands hne
    rw [publications_eq_self hall, if_pos (publishing_iff.mpr ⟨command, hcommand, hall command hcommand⟩)]
  · rw [publications_singleton hother, if_neg]
    rw [publishing_iff]
    simpa using hother

theorem numberRecords_append (last : ℤ) (records more : List Record) :
    numberRecords last (records ++ more) =
      numberRecords last records ++ numberRecords (last + records.length) more := by
  induction records generalizing last with
  | nil => simp [numberRecords]
  | cons record records ih =>
    rw [List.cons_append, numberRecords, numberRecords, ih, List.cons_append, List.length_cons]
    congr 3
    omega

end Lists

/-! ### What a turn of the writer does to the queue -/

/-- Nothing that the books count has changed. -/
structure Quiet (impl impl' : Impl) : Prop where
  writes : impl'.writes = impl.writes
  reads : impl'.reads = impl.reads
  reader : impl'.reader = impl.reader
  completions : impl'.completions = impl.completions
  pendingTasks : impl'.pendingTasks = impl.pendingTasks
  queuedRows : impl'.queuedRows = impl.queuedRows
  nextTask : impl'.nextTask = impl.nextTask
  volumes : impl'.volumes = impl.volumes
  queueBytes : impl'.status.queueBytes = impl.status.queueBytes
  queued : impl'.status.queued = impl.status.queued
  committed : impl'.status.committed = impl.status.committed
  stopping : impl'.stopping = impl.stopping
  inProgress : impl'.writer.inProgress = impl.writer.inProgress
  appended : impl'.writer.appended = impl.writer.appended

section Quiet

variable {impl : Impl}

/-- A status that differs in its flags, and a writer in a phase of the same batch. -/
theorem quiet_of_phase {writer : Writer} (hprogress : writer.inProgress = impl.writer.inProgress)
    (happended : writer.appended = impl.writer.appended) : Quiet impl { impl with writer } where
  writes := rfl
  reads := rfl
  reader := rfl
  completions := rfl
  pendingTasks := rfl
  queuedRows := rfl
  nextTask := rfl
  volumes := rfl
  queueBytes := rfl
  queued := rfl
  committed := rfl
  stopping := rfl
  inProgress := hprogress
  appended := happended

theorem Quiet.trans {impl' impl'' : Impl} (h : Quiet impl impl') (h' : Quiet impl' impl'') :
    Quiet impl impl'' where
  writes := h'.writes.trans h.writes
  reads := h'.reads.trans h.reads
  reader := h'.reader.trans h.reader
  completions := h'.completions.trans h.completions
  pendingTasks := h'.pendingTasks.trans h.pendingTasks
  queuedRows := h'.queuedRows.trans h.queuedRows
  nextTask := h'.nextTask.trans h.nextTask
  volumes := h'.volumes.trans h.volumes
  queueBytes := h'.queueBytes.trans h.queueBytes
  queued := h'.queued.trans h.queued
  committed := h'.committed.trans h.committed
  stopping := h'.stopping.trans h.stopping
  inProgress := h'.inProgress.trans h.inProgress
  appended := h'.appended.trans h.appended

theorem quiet_maintenanceFault (error : String) : Quiet impl (maintenanceFault error impl) := by
  constructor <;> rfl

theorem quiet_maintain (outcome : Option Failure) : Quiet impl (maintain outcome impl) := by
  cases outcome with
  | none => constructor <;> rfl
  | some failure => exact quiet_maintenanceFault failure.message

theorem quiet_switchRecording (command : Command) : Quiet impl (switchRecording command impl) := by
  unfold switchRecording
  split <;> constructor <;> rfl

/-- The commands in progress while a fault is persisted. -/
def AfterPersist.inProgress : AfterPersist → List Command
  | .session command => [command]
  | _ => []

theorem quiet_continueWith (next : AfterPersist)
    (hprogress : next.inProgress = impl.writer.inProgress) (happended : impl.writer.appended = []) :
    Quiet impl (continueWith next impl) := by
  cases next with
  | maintain active =>
    apply quiet_of_phase
    · rw [← hprogress]
      cases active <;> rfl
    · rw [happended]
      cases active <;> rfl
  | session command => exact quiet_of_phase hprogress happended.symm
  | finish => exact quiet_of_phase hprogress happended.symm

theorem inProgress_persisting (next : AfterPersist) :
    (Writer.persisting next).inProgress = next.inProgress := by
  cases next <;> rfl

theorem inProgress_faulting (next : AfterPersist) :
    (Writer.faulting next).inProgress = next.inProgress := by
  cases next <;> rfl

theorem quiet_persistFault (next : AfterPersist)
    (hprogress : next.inProgress = impl.writer.inProgress) (happended : impl.writer.appended = []) :
    Quiet impl (persistFault next impl) := by
  unfold persistFault
  split
  · have hclean : Quiet impl { impl with faultMetadataDirty := false } := by
      constructor <;> rfl
    split
    · refine hclean.trans ?_
      apply quiet_of_phase
      · rw [inProgress_faulting]
        exact hprogress
      · exact happended.symm
    · exact hclean.trans (quiet_continueWith next hprogress happended)
  · exact quiet_continueWith next hprogress happended

end Quiet

/-- The batch a turn takes from a queue that is not empty. -/
def take (config : Config) (front : Command) (writes : List Command) (impl : Impl) : Impl :=
  let (batch, rest) := takeBatch config.batchRows front writes
  { impl with
    queuedRows := impl.queuedRows - rowCount batch
    writes := rest
    writing := true
    writer := .taken batch }

/-- What a turn of the writer is for the books. -/
inductive Turn (config : Config) (outcome : Option Failure) (impl : Impl) : Impl → Prop where
  | quiet {impl' : Impl} (h : Quiet impl impl')
      (hlog : ∀ entry ∈ decided outcome impl, entry = .started) : Turn config outcome impl impl'
  | takes {front : Command} {writes : List Command} (hwriter : impl.writer = .waiting)
      (hwrites : impl.writes = front :: writes) :
      Turn config outcome impl (take config front writes impl)
  | appends {batch : List Command} (hwriter : impl.writer = .appending batch) :
      Turn config outcome impl
        { impl with
          volumes := impl.volumes.append (recordsOf batch)
          writer := .settling batch "" }
  | settles {batch : List Command} {error : String} (hwriter : impl.writer = .settling batch error) :
      Turn config outcome impl (settle batch error impl)
  | abandons {failure : Failure} (hwriter : impl.writer = .opening)
      (houtcome : outcome = some failure) : Turn config outcome impl (abandon failure impl)

theorem appended_settling {command : Command} (h : command.operation ≠ .publish) (error : String) :
    (Writer.settling [command] error).appended = [] := by
  show (if error = "" then publications [command] else []) = []
  rw [publications_singleton h, ite_self]

/-- **Every turn of the writer is one of five.** -/
theorem writerTurn_turn (config : Config) (outcome : Option Failure) {impl : Impl}
    (hsound : impl.writer.Sound impl.stopping impl.writes)
    (herror : impl.status.faulted = true → impl.status.error ≠ "") :
    Turn config outcome impl (writerTurn config outcome impl) := by
  obtain ⟨writes, _, _, _, _, _, _, _, status, stopping, _, _, _, _, writer, _⟩ := impl
  have hnothing : ∀ entry ∈ ([] : List Entry), entry = .started := fun _ hmem => nomatch hmem
  dsimp only at hsound herror
  cases writer with
  | opening =>
    cases outcome with
    | none => exact .quiet (quiet_of_phase rfl rfl) hnothing
    | some failure => exact .abandons rfl rfl
  | waiting =>
    cases writes with
    | nil =>
      dsimp only [writerTurn]
      split
      · exact .quiet (quiet_of_phase rfl rfl) hnothing
      · exact .quiet (quiet_of_phase rfl rfl) hnothing
    | cons front writes => exact .takes rfl rfl
  | taken batch =>
    cases batch with
    | nil => exact absurd hsound (by simp [Writer.Sound, Uniform])
    | cons front rest =>
      dsimp only [writerTurn]
      split
      · split
        · rename_i hfaulted
          exact .quiet (quiet_of_phase rfl (if_neg (herror hfaulted))) hnothing
        · exact .quiet (quiet_of_phase rfl rfl) hnothing
      · rename_i hother
        rcases hsound with ⟨-, hall⟩ | ⟨command, hbatch, -⟩
        · exact absurd (hall front List.mem_cons_self) hother
        · cases hbatch
          exact .quiet (quiet_of_phase rfl rfl) hnothing
  | appending batch =>
    cases outcome with
    | none => exact .appends rfl
    | some failure => exact .quiet (quiet_of_phase rfl (if_neg failure.nonempty)) hnothing
  | executing command =>
    dsimp only [writerTurn]
    split
    · exact .quiet (quiet_of_phase rfl rfl) hnothing
    · exact .quiet (quiet_of_phase rfl rfl) hnothing
    · exact .quiet (quiet_of_phase rfl (appended_settling hsound _)) hnothing
    · exact .quiet (quiet_of_phase rfl (appended_settling hsound _)) hnothing
    · exact .quiet (quiet_of_phase rfl (appended_settling hsound _)) hnothing
  | session command =>
    cases outcome with
    | none =>
      refine .quiet ((quiet_switchRecording command).trans (quiet_of_phase ?_ ?_)) ?_
      · unfold switchRecording
        split <;> rfl
      · rw [appended_settling hsound]
        unfold switchRecording
        split <;> rfl
      · intro entry hentry
        dsimp only [decided] at hentry
        split at hentry
        · exact List.mem_singleton.mp hentry
        · cases hentry
    | some failure =>
      refine .quiet (quiet_of_phase rfl (appended_settling hsound _)) ?_
      intro entry hentry
      simp [decided] at hentry
  | settling batch error => exact .settles rfl
  | committed =>
    refine .quiet ((quiet_maintain outcome).trans (quiet_of_phase ?_ ?_)) hnothing
    · cases outcome <;> rfl
    · cases outcome <;> rfl
  | maintaining =>
    refine .quiet ((quiet_maintain outcome).trans (quiet_of_phase ?_ ?_)) hnothing
    · cases outcome <;> rfl
    · cases outcome <;> rfl
  | persisting next =>
    exact .quiet (quiet_persistFault next (inProgress_persisting next).symm rfl) hnothing
  | faulting next =>
    have hprogress := (inProgress_faulting next).symm
    cases outcome with
    | none => exact .quiet (quiet_continueWith next hprogress rfl) hnothing
    | some failure =>
      refine .quiet (Quiet.trans ?_ (quiet_continueWith next ?_ rfl)) hnothing
      · constructor <;> rfl
      · exact hprogress
  | idle =>
    refine .quiet ((quiet_maintain outcome).trans (quiet_of_phase ?_ ?_)) hnothing
    · cases outcome <;> rfl
    · cases outcome <;> rfl
  | finishing =>
    refine .quiet ?_ hnothing
    constructor <;> rfl
  | ended =>
    refine .quiet ?_ hnothing
    constructor <;> rfl

/-! ### Taking a batch -/

theorem takePublications_spec (batchRows rows : ℕ) (writes : List Command) :
    (takePublications batchRows rows writes).1 ++ (takePublications batchRows rows writes).2 = writes ∧
      ∀ command ∈ (takePublications batchRows rows writes).1, command.operation = .publish := by
  induction writes generalizing rows with
  | nil => exact ⟨rfl, fun _ hmem => nomatch hmem⟩
  | cons command writes ih =>
    unfold takePublications
    split
    · rename_i hpublish
      obtain ⟨happend, hall⟩ := ih (rows + command.records.length)
      refine ⟨congrArg (command :: ·) happend, ?_⟩
      intro other hmem
      rcases List.mem_cons.mp hmem with rfl | hmem
      · exact hpublish.1
      · exact hall other hmem
    · exact ⟨rfl, fun _ hmem => nomatch hmem⟩

theorem takeBatch_spec (batchRows : ℕ) (front : Command) (writes : List Command) :
    (takeBatch batchRows front writes).1 ++ (takeBatch batchRows front writes).2 = front :: writes ∧
      Uniform (takeBatch batchRows front writes).1 := by
  unfold takeBatch
  split
  · rename_i hpublish
    obtain ⟨happend, hall⟩ := takePublications_spec batchRows front.records.length writes
    refine ⟨congrArg (front :: ·) happend, .inl ⟨List.cons_ne_nil _ _, ?_⟩⟩
    intro command hmem
    rcases List.mem_cons.mp hmem with rfl | hmem
    · exact hpublish
    · exact hall command hmem
  · rename_i hother
    exact ⟨rfl, .inr ⟨front, rfl, hother⟩⟩

/-! ### The books -/

def settledBatch : Entry → List Command
  | .committed batch => batch
  | .failed batch => batch
  | .started => []

def committedBatch : Entry → List Command
  | .committed batch => batch
  | _ => []

def failedBatch : Entry → List Command
  | .failed batch => batch
  | _ => []

/-- What the history and the queue say, for a store that was opened on the live records `base`. -/
structure Books (base : LiveRecords) (s : System) : Prop where
  /-- every publication was settled, is in progress or waits, in the order of publication -/
  entire : s.accepted = s.log.flatMap settledBatch ++
    publications (s.store.writer.inProgress ++ s.store.writes)
  queueBytes : s.store.status.queueBytes = byteCount (s.store.writer.inProgress ++ s.store.writes)
  queuedRows : s.store.queuedRows = rowCount s.store.writes
  queued : s.store.status.queued = rowCount s.accepted
  committed : s.store.status.committed = rowCount (s.log.flatMap committedBatch)
  rows : s.store.volumes.rows = base.rows ++ numberRecords base.lastId
    (recordsOf (s.log.flatMap committedBatch ++ s.store.writer.appended))
  lastId : s.store.volumes.lastId = base.lastId +
    (recordsOf (s.log.flatMap committedBatch ++ s.store.writer.appended)).length
  plain : ∀ command ∈ s.store.writer.inProgress ++ s.store.writes,
    command.operation ≠ .publish → command.records = []

namespace Books

variable {base : LiveRecords} {s : System}

/-- The books do not change where nothing they count does. -/
theorem quiet (h : Books base s) {store : Impl} (hquiet : Quiet s.store store) {log : List Entry}
    (hlog : ∀ entry ∈ log, entry = .started) :
    Books base { s with store, log := s.log ++ log } := by
  have hnone : ∀ batchOf : Entry → List Command, batchOf .started = [] →
      (s.log ++ log).flatMap batchOf = s.log.flatMap batchOf := by
    intro batchOf hstarted
    rw [List.flatMap_append, List.append_right_eq_self, List.flatMap_eq_nil_iff]
    intro entry hentry
    rw [hlog entry hentry, hstarted]
  constructor <;> dsimp only
  · rw [hquiet.inProgress, hquiet.writes, hnone settledBatch rfl]
    exact h.entire
  · rw [hquiet.queueBytes, hquiet.inProgress, hquiet.writes]
    exact h.queueBytes
  · rw [hquiet.queuedRows, hquiet.writes]
    exact h.queuedRows
  · rw [hquiet.queued]
    exact h.queued
  · rw [hquiet.committed, hnone committedBatch rfl]
    exact h.committed
  · rw [hquiet.volumes, hquiet.appended, hnone committedBatch rfl]
    exact h.rows
  · rw [hquiet.volumes, hquiet.appended, hnone committedBatch rfl]
    exact h.lastId
  · rw [hquiet.inProgress, hquiet.writes]
    exact h.plain

/-- Records that only publications have. -/
theorem rowCount_plain {commands : List Command}
    (h : ∀ command ∈ commands, command.operation ≠ .publish → command.records = []) :
    rowCount (publications commands) = rowCount commands := by
  induction commands with
  | nil => rfl
  | cons command commands ih =>
    have htail := ih fun other hmem => h other (List.mem_cons_of_mem _ hmem)
    have hsplit : ∀ command (commands : List Command),
        rowCount (command :: commands) = command.records.length + rowCount commands :=
      fun _ _ => by simp [rowCount]
    unfold publications at htail ⊢
    rw [List.filter_cons]
    split
    · rw [hsplit, hsplit, htail]
    · rename_i hother
      have hrecords := h command List.mem_cons_self (by simpa using hother)
      rw [hsplit, htail, hrecords]
      simp

theorem take (h : Books base s) (config : Config) {front : Command} {writes : List Command}
    (hwriter : s.store.writer = .waiting) (hwrites : s.store.writes = front :: writes) :
    Books base { s with store := Store.take config front writes s.store } := by
  obtain ⟨happend, -⟩ := takeBatch_spec config.batchRows front writes
  have hqueue : (Store.take config front writes s.store).writer.inProgress ++
      (Store.take config front writes s.store).writes =
        s.store.writer.inProgress ++ s.store.writes := by
    rw [hwriter, hwrites]
    exact happend
  have hrows := h.queuedRows
  rw [hwrites, ← happend, rowCount_append] at hrows
  constructor <;> dsimp only
  · rw [hqueue]
    exact h.entire
  · rw [hqueue]
    exact h.queueBytes
  · show s.store.queuedRows - (rowCount (takeBatch config.batchRows front writes).1 : ℤ) =
      (rowCount (takeBatch config.batchRows front writes).2 : ℤ)
    rw [hrows]
    push_cast
    omega
  · exact h.queued
  · exact h.committed
  · have hrowsOf := h.rows
    rw [hwriter] at hrowsOf
    exact hrowsOf
  · have hlastId := h.lastId
    rw [hwriter] at hlastId
    exact hlastId
  · rw [hqueue]
    exact h.plain

theorem append (h : Books base s) {batch : List Command}
    (hwriter : s.store.writer = .appending batch)
    (hall : ∀ command ∈ batch, command.operation = .publish) :
    Books base { s with store :=
      { s.store with
        volumes := s.store.volumes.append (recordsOf batch)
        writer := .settling batch "" } } := by
  have hprogress : (Writer.settling batch "").inProgress = s.store.writer.inProgress := by
    rw [hwriter]
    rfl
  have happended : (Writer.settling batch "").appended = batch := by
    show (if "" = "" then publications batch else []) = batch
    rw [if_pos rfl, publications_eq_self hall]
  have hrows := h.rows
  have hlastId := h.lastId
  rw [hwriter] at hrows hlastId
  have hnothing : (Writer.appending batch).appended = [] := rfl
  rw [hnothing, List.append_nil] at hrows hlastId
  constructor <;> dsimp only
  · rw [hprogress]
    exact h.entire
  · rw [hprogress]
    exact h.queueBytes
  · exact h.queuedRows
  · exact h.queued
  · exact h.committed
  · rw [happended, recordsOf_append, numberRecords_append, ← List.append_assoc, ← hrows, ← hlastId]
    rfl
  · rw [happended, recordsOf_append, List.length_append]
    show s.store.volumes.lastId + (recordsOf batch).length = _
    rw [hlastId]
    push_cast
    omega
  · rw [hprogress]
    exact h.plain

/-- What settling leaves of the counted part of the store. -/
theorem settle_counts (batch : List Command) (error : String) (impl : Impl) :
    (settle batch error impl).writes = impl.writes ∧
      (settle batch error impl).reads = impl.reads ∧
      (settle batch error impl).reader = impl.reader ∧
      (settle batch error impl).pendingTasks = impl.pendingTasks ∧
      (settle batch error impl).nextTask = impl.nextTask ∧
      (settle batch error impl).queuedRows = impl.queuedRows ∧
      (settle batch error impl).volumes = impl.volumes ∧
      (settle batch error impl).stopping = impl.stopping ∧
      (settle batch error impl).status.queueBytes = impl.status.queueBytes - byteCount batch ∧
      (settle batch error impl).status.queued = impl.status.queued ∧
      (settle batch error impl).status.committed =
        impl.status.committed + (if error = "" then rowCount batch else 0) ∧
      (settle batch error impl).completions = impl.completions ++
        ((batch.filter fun command => command.operation ≠ .publish).map fun command =>
          { task := command.task, operation := command.operation, ok := error = "", error }) ∧
      (settle batch error impl).writer.inProgress = [] ∧
      (settle batch error impl).writer.appended = [] := by
  have hwriter : ∀ writer : Writer, (writer = if publishing batch = true ∧ error = "" then
      if rowCount batch = 0 then .maintaining else .committed
      else .persisting .finish) → writer.inProgress = [] ∧ writer.appended = [] := by
    intro writer heq
    rw [heq]
    split
    · split <;> exact ⟨rfl, rfl⟩
    · exact ⟨rfl, rfl⟩
  obtain ⟨hprogress, happended⟩ := hwriter _ rfl
  unfold settle
  dsimp only
  split
  · exact ⟨rfl, rfl, rfl, rfl, rfl, rfl, rfl, rfl, rfl, rfl, rfl, rfl, hprogress, happended⟩
  · split
    · exact ⟨rfl, rfl, rfl, rfl, rfl, rfl, rfl, rfl, rfl, rfl, rfl, rfl, hprogress, happended⟩
    · exact ⟨rfl, rfl, rfl, rfl, rfl, rfl, rfl, rfl, rfl, rfl, rfl, rfl, hprogress, happended⟩

theorem settle (h : Books base s) (outcome : Option Failure) {batch : List Command} {error : String}
    (hwriter : s.store.writer = .settling batch error) (huniform : Uniform batch) :
    Books base { s with
      store := Store.settle batch error s.store
      log := s.log ++ decided outcome s.store } := by
  obtain ⟨hwrites, -, -, -, -, hqueuedRows, hvolumes, -, hqueueBytes, hqueued, hcommitted, -,
    hprogress, happended⟩ := settle_counts batch error s.store
  have hplain := h.plain
  have hbytes := h.queueBytes
  have hrows := h.rows
  have hlastId := h.lastId
  have hentire := h.entire
  have hown : (Writer.settling batch error).inProgress = batch := rfl
  have hownAppended : (Writer.settling batch error).appended =
      if error = "" then publications batch else [] := rfl
  rw [hwriter, hown] at hplain hbytes hentire
  rw [hwriter, hownAppended] at hrows hlastId
  rw [byteCount_append] at hbytes
  rw [publications_append] at hentire
  have hdecided : decided outcome s.store =
      if publishing batch then
        if error = "" then [.committed batch] else [.failed batch]
      else [] := by
    unfold decided
    rw [hwriter]
  have hsettled : (decided outcome s.store).flatMap settledBatch = publications batch := by
    rw [hdecided, huniform.publications_eq]
    split
    · split <;> simp [settledBatch]
    · rfl
  have hcommittedBatch : (decided outcome s.store).flatMap committedBatch =
      if error = "" then publications batch else [] := by
    rw [hdecided, huniform.publications_eq]
    split
    · split <;> simp [committedBatch]
    · simp
  have hrowCount : rowCount (publications batch) = rowCount batch :=
    rowCount_plain fun command hmem => hplain command (List.mem_append_left _ hmem)
  constructor <;> dsimp only
  · rw [hprogress, hwrites, List.nil_append, List.flatMap_append, hsettled, List.append_assoc]
    exact hentire
  · rw [hprogress, hwrites, hqueueBytes, hbytes, List.nil_append]
    push_cast
    omega
  · rw [hqueuedRows, hwrites]
    exact h.queuedRows
  · rw [hqueued]
    exact h.queued
  · rw [hcommitted, List.flatMap_append, hcommittedBatch, rowCount_append, h.committed]
    split
    · rw [hrowCount]
    · rfl
  · rw [hvolumes, happended, List.append_nil, List.flatMap_append, hcommittedBatch]
    exact hrows
  · rw [hvolumes, happended, List.append_nil, List.flatMap_append, hcommittedBatch]
    exact hlastId
  · rw [hprogress, hwrites]
    exact fun command hmem => hplain command (List.mem_append_right _ hmem)

theorem abandon (h : Books base s) {outcome : Option Failure} {failure : Failure}
    (hwriter : s.store.writer = .opening) (houtcome : outcome = some failure) :
    Books base { s with
      store := Store.abandon failure s.store
      log := s.log ++ decided outcome s.store } := by
  have hdecided : decided outcome s.store = [.failed (publications s.store.writes)] := by
    unfold decided
    rw [hwriter, houtcome]
    rfl
  have hentire := h.entire
  have hrows := h.rows
  have hlastId := h.lastId
  rw [hwriter] at hentire hrows hlastId
  rw [hdecided]
  constructor <;> dsimp only
  · rw [hentire, List.flatMap_append]
    show _ = _ ++ (publications s.store.writes ++ []) ++ []
    rw [List.append_nil, List.append_nil]
    rfl
  · rfl
  · rfl
  · exact h.queued
  · rw [List.flatMap_append]
    show _ = rowCount (_ ++ [])
    rw [List.append_nil]
    exact h.committed
  · rw [List.flatMap_append]
    show _ = _ ++ numberRecords _ (recordsOf (_ ++ [] ++ []))
    rw [List.append_nil]
    exact hrows
  · rw [List.flatMap_append]
    show _ = _ + ((recordsOf (_ ++ [] ++ [])).length : ℤ)
    rw [List.append_nil]
    exact hlastId
  · exact fun _ hmem => nomatch hmem

end Books

/-! ### Calls -/

/-- A command that is accepted: what it adds, and when. -/
structure Enqueues (config : Config) (impl impl' : Impl) (command : Command) : Prop where
  running : impl.stopping = false
  fits : impl.status.queueBytes + command.bytes ≤ config.queueBytes
  writes : impl'.writes = impl.writes ++ [command]
  reads : impl'.reads = impl.reads
  reader : impl'.reader = impl.reader
  completions : impl'.completions = impl.completions
  writer : impl'.writer = impl.writer
  stopping : impl'.stopping = impl.stopping
  volumes : impl'.volumes = impl.volumes
  queuedRows : impl'.queuedRows = impl.queuedRows + command.records.length
  queueBytes : impl'.status.queueBytes = impl.status.queueBytes + command.bytes
  queued : impl'.status.queued = impl.status.queued + rowCount (publications [command])
  committed : impl'.status.committed = impl.status.committed
  faulted : impl'.status.faulted = impl.status.faulted
  error : impl'.status.error = impl.status.error

/-- A publication is refused, which may be a fault, or accepted. -/
theorem publish_cases (config : Config) (sizes : QueueSizes) (declarations : Declarations)
    (records : List Record) (impl : Impl) :
    (Quiet impl (publish config sizes declarations records impl).1 ∧
      (publish config sizes declarations records impl).1.writer = impl.writer ∧
      (impl.status.faulted = true → (publish config sizes declarations records impl).1.status.faulted = true) ∧
      ((impl.status.faulted = true → impl.status.error ≠ "") →
        (publish config sizes declarations records impl).1.status.faulted = true →
          (publish config sizes declarations records impl).1.status.error ≠ "")) ∨
      ∃ command, command.operation = .publish ∧
        Enqueues config impl (publish config sizes declarations records impl).1 command ∧
        (publish config sizes declarations records impl).1.pendingTasks = impl.pendingTasks ∧
        (publish config sizes declarations records impl).1.nextTask = impl.nextTask := by
  unfold publish
  split
  · left
    refine ⟨?_, rfl, id, id⟩
    constructor <;> rfl
  · rename_i checked _
    split
    · left
      refine ⟨?_, rfl, fun _ => rfl,
        fun _ _ => (by decide : "发布批次超过记录队列容量" ≠ "")⟩
      constructor <;> rfl
    · rename_i bytes _
      unfold publishChecked publishReceived received
      dsimp only
      split
      · left
        split
        · refine ⟨?_, rfl, id, id⟩
          constructor <;> rfl
        · refine ⟨?_, rfl, id, id⟩
          constructor <;> rfl
      · rename_i hrunning
        split
        · left
          refine ⟨?_, rfl, fun _ => rfl, fun _ _ => (by decide : "记录队列已满" ≠ "")⟩
          constructor <;> rfl
        · rename_i hfits
          right
          have hrows : rowCount (publications [{ operation := .publish, bytes, records := checked }]) =
              checked.length := by
            simp [rowCount, publications]
          refine ⟨{ operation := .publish, bytes, records := checked }, rfl, ?_, rfl, rfl⟩
          refine ⟨?_, ?_, rfl, rfl, rfl, rfl, rfl, rfl, rfl, rfl, rfl, ?_, rfl, rfl, rfl⟩
          · by_contra hnot
            exact hrunning (.inr (.inr (by simpa using hnot)))
          · dsimp only
            omega
          · rw [hrows]

/-- A command is refused, or accepted with the next task. -/
theorem enqueue_cases (config : Config) (operation : Operation) (bytes : ℕ) (impl : Impl)
    (hother : operation ≠ .publish) :
    (∃ message, enqueue config operation bytes impl = (impl, .error message)) ∨
      ∃ impl', enqueue config operation bytes impl = (impl', .ok impl.nextTask) ∧
        Enqueues config impl impl' { task := impl.nextTask, operation, bytes } ∧
        impl'.pendingTasks = impl.pendingTasks + 1 ∧ impl'.nextTask = impl.nextTask + 1 := by
  unfold enqueue
  split
  · exact .inl ⟨_, rfl⟩
  · rename_i haccepted
    right
    refine ⟨_, rfl, ?_, rfl, rfl⟩
    refine ⟨?_, ?_, rfl, rfl, rfl, rfl, rfl, rfl, rfl, (Int.add_zero _).symm, rfl, ?_, rfl, rfl, rfl⟩
    · by_contra hnot
      exact haccepted (.inl (by simpa using hnot))
    · dsimp only
      omega
    · rw [publications_singleton hother]
      rfl

namespace Books

variable {base : LiveRecords} {s : System}

/-- One more command waits. -/
theorem enqueue (h : Books base s) {config : Config} {store : Impl} {command : Command}
    (henqueues : Enqueues config s.store store command)
    (hplain : command.operation ≠ .publish → command.records = [])
    (tasks : List (ℕ × Operation)) :
    Books base { s with store, accepted := s.accepted ++ publications [command], tasks } := by
  have hbytes : byteCount [command] = command.bytes := by simp [byteCount]
  have hrows : rowCount [command] = command.records.length := by simp [rowCount]
  constructor <;> dsimp only
  · rw [henqueues.writer, henqueues.writes, ← List.append_assoc, publications_append, h.entire,
      List.append_assoc]
  · rw [henqueues.queueBytes, henqueues.writer, henqueues.writes, ← List.append_assoc,
      byteCount_append, hbytes, h.queueBytes]
    push_cast
    rfl
  · rw [henqueues.queuedRows, henqueues.writes, rowCount_append, hrows, h.queuedRows]
    push_cast
    rfl
  · rw [henqueues.queued, rowCount_append, h.queued]
  · rw [henqueues.committed]
    exact h.committed
  · rw [henqueues.volumes, henqueues.writer]
    exact h.rows
  · rw [henqueues.volumes, henqueues.writer]
    exact h.lastId
  · rw [henqueues.writer, henqueues.writes, ← List.append_assoc]
    intro other hmem
    rcases List.mem_append.mp hmem with hmem | hmem
    · exact h.plain other hmem
    · rw [List.mem_singleton.mp hmem]
      exact hplain

end Books

end ProtoScope.Storage.Store
