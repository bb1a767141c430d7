/-
Publications and tasks of the store, over every run.

What the books say is put together here: publications are committed whole and in order, none
after a failure before the next start, the counters are those of the queues, and every task
has its one completion once the two threads have had their turns.
-/
import ProtoScope.Proofs.Storage.StoreRuns

namespace ProtoScope.Storage.Store

open ProtoScope.Data Writer

/-! ### The threads finish what is queued -/

def Writer.rank : Writer → ℕ
  | .opening => 1
  | .waiting => 0
  | .taken _ => 11
  | .appending _ => 10
  | .executing _ => 10
  | .persisting (.session _) => 9
  | .faulting (.session _) => 8
  | .session _ => 7
  | .settling _ _ => 6
  | .committed => 5
  | .maintaining => 4
  | .persisting _ => 3
  | .faulting _ => 2
  | .idle => 1
  | .finishing => 1
  | .ended => 0

def writerWork (impl : Impl) : ℕ := 12 * impl.writes.length + impl.writer.rank

def WriterDone (impl : Impl) : Prop := impl.writes = [] ∧ impl.writer.inProgress = []

theorem rank_continueWith (next : AfterPersist) (impl : Impl) :
    (continueWith next impl).writer.rank < (faulting next).rank := by
  cases next with
  | maintain active => cases active <;> simp [continueWith, rank]
  | session command => simp [continueWith, rank]
  | finish => simp [continueWith, rank]

theorem rank_faulting (next : AfterPersist) :
    (faulting next).rank < (persisting next).rank := by
  cases next <;> simp [rank]

theorem writes_continueWith (next : AfterPersist) (impl : Impl) :
    (continueWith next impl).writes = impl.writes := by
  cases next <;> rfl

/-- A turn of the writer comes nearer to the end of its work, or there is none. -/
theorem writerTurn_work (config : Config) (outcome : Option Failure) {impl : Impl}
    (hsound : impl.writer.Sound impl.stopping impl.writes) :
    WriterDone (writerTurn config outcome impl) ∨
      writerWork (writerTurn config outcome impl) < writerWork impl := by
  obtain ⟨writes, _, _, _, _, _, _, _, status, stopping, _, _, _, _, writer, _⟩ := impl
  dsimp only at hsound
  have hstep : ∀ {impl' : Impl} {rank : ℕ}, impl'.writes = writes → impl'.writer.rank < rank →
      12 * impl'.writes.length + impl'.writer.rank < 12 * writes.length + rank := by
    intro impl' rank hwrites hrank
    rw [hwrites]
    omega
  unfold writerWork
  cases writer with
  | opening =>
    cases outcome with
    | none => exact .inr (hstep rfl (Nat.zero_lt_one))
    | some failure => exact .inl ⟨rfl, rfl⟩
  | waiting =>
    cases writes with
    | nil =>
      left
      dsimp only [writerTurn]
      split <;> exact ⟨rfl, rfl⟩
    | cons front writes =>
      right
      obtain ⟨happend, huniform⟩ := takeBatch_spec config.batchRows front writes
      have hlength := congrArg List.length happend
      rw [List.length_append] at hlength
      have hpositive : 0 < (takeBatch config.batchRows front writes).1.length := by
        rw [List.length_pos_iff]
        rcases huniform with ⟨hne, -⟩ | ⟨command, heq, -⟩
        · exact hne
        · rw [heq]
          exact List.cons_ne_nil _ _
      show 12 * (takeBatch config.batchRows front writes).2.length + 11 < 12 * (front :: writes).length + 0
      omega
  | taken batch =>
    cases batch with
    | nil => exact absurd hsound (by simp [Writer.Sound, Uniform])
    | cons front rest =>
      right
      dsimp only [writerTurn]
      split
      · split
        · exact hstep rfl (by simp [rank])
        · exact hstep rfl (by simp [rank])
      · exact hstep rfl (by simp [rank])
  | appending batch =>
    right
    cases outcome <;> exact hstep rfl (by simp [writerTurn, rank])
  | executing command =>
    right
    dsimp only [writerTurn]
    split <;> exact hstep rfl (by simp [rank])
  | session command =>
    right
    cases outcome with
    | none =>
      apply hstep
      · dsimp only [writerTurn, switchRecording]
        split <;> rfl
      · simp [writerTurn, rank]
    | some failure => exact hstep rfl (by simp [writerTurn, rank])
  | settling batch error =>
    right
    refine hstep (Books.settle_counts batch error _).1 ?_
    show (settle batch error _).writer.rank < 6
    unfold settle
    dsimp only
    split
    · split <;> simp [rank]
    · simp [rank]
  | committed =>
    right
    apply hstep
    · cases outcome <;> rfl
    · simp [writerTurn, rank]
  | maintaining =>
    right
    apply hstep
    · cases outcome <;> rfl
    · simp [writerTurn, rank]
  | persisting next =>
    right
    have hcontinue : ∀ impl : Impl,
        (continueWith next impl).writer.rank < (persisting next).rank :=
      fun impl => (rank_continueWith next impl).trans (rank_faulting next)
    dsimp only [writerTurn, persistFault]
    split
    · split
      · exact hstep rfl (rank_faulting next)
      · exact hstep (writes_continueWith next _) (hcontinue _)
    · exact hstep (writes_continueWith next _) (hcontinue _)
  | faulting next =>
    right
    cases outcome with
    | none => exact hstep (writes_continueWith next _) (rank_continueWith next _)
    | some failure => exact hstep (writes_continueWith next _) (rank_continueWith next _)
  | idle =>
    right
    apply hstep
    · cases outcome <;> rfl
    · simp [writerTurn, rank]
  | finishing => exact .inr (hstep rfl (by simp [writerTurn, rank]))
  | ended => exact .inl ⟨hsound.2, rfl⟩

/-- A writer without work has none after its turn. -/
theorem writerTurn_done (config : Config) (outcome : Option Failure) {impl : Impl}
    (h : WriterDone impl) (hsound : impl.writer.Sound impl.stopping impl.writes)
    (herror : impl.status.faulted = true → impl.status.error ≠ "") :
    WriterDone (writerTurn config outcome impl) := by
  have hturn := writerTurn_turn config outcome hsound herror
  generalize writerTurn config outcome impl = impl' at hturn
  cases hturn with
  | quiet hquiet hlog => exact ⟨hquiet.writes.trans h.1, hquiet.inProgress.trans h.2⟩
  | takes hwriter hwrites => exact absurd (hwrites.symm.trans h.1) (List.cons_ne_nil _ _)
  | appends hwriter =>
    have hempty := h.2
    rw [hwriter] at hempty hsound
    exact absurd hempty hsound.1
  | @settles batch error hwriter =>
    obtain ⟨hwrites, -, -, -, -, -, -, -, -, -, -, -, hprogress, -⟩ :=
      Books.settle_counts batch error impl
    exact ⟨hwrites.trans h.1, hprogress⟩
  | abandons hwriter houtcome => exact ⟨rfl, rfl⟩

def readerWork (impl : Impl) : ℕ := 2 * impl.reads.length + impl.reader.inProgress.length

def ReaderDone (impl : Impl) : Prop := impl.reads = [] ∧ impl.reader.inProgress = []

theorem readerTurn_work (outcome : Option Failure) {impl : Impl}
    (hended : impl.reader = .ended → impl.stopping = true ∧ impl.reads = []) :
    ReaderDone (readerTurn outcome impl) ∨
      readerWork (readerTurn outcome impl) < readerWork impl := by
  obtain ⟨_, reads, _, _, _, _, _, _, _, stopping, _, _, _, _, _, reader⟩ := impl
  cases reader with
  | waiting =>
    cases reads with
    | nil =>
      left
      dsimp only [readerTurn]
      split <;> exact ⟨rfl, rfl⟩
    | cons command reads =>
      right
      show 2 * reads.length + 1 < 2 * (command :: reads).length + 0
      rw [List.length_cons]
      omega
  | running command =>
    right
    show 2 * reads.length + 0 < 2 * reads.length + 1
    omega
  | ended => exact .inl ⟨(hended rfl).2, rfl⟩

theorem readerTurn_done (outcome : Option Failure) {impl : Impl} (h : ReaderDone impl) :
    ReaderDone (readerTurn outcome impl) := by
  obtain ⟨_, reads, _, _, _, _, _, _, _, stopping, _, _, _, _, _, reader⟩ := impl
  obtain ⟨hreads, hprogress⟩ := h
  dsimp only at hreads
  subst hreads
  cases reader with
  | waiting =>
    dsimp only [readerTurn]
    split <;> exact ⟨rfl, rfl⟩
  | running command => cases hprogress
  | ended => exact ⟨rfl, rfl⟩

/-- Turns of the two threads, with the outcomes of what they call. -/
def turns (writer reader : ℕ → Option Failure) (n : ℕ) : List Event :=
  (List.range n).flatMap fun i => [.writer (writer i), .reader (reader i)]

section Turns

variable {config : Config} {base : LiveRecords} {s : System}

/-- After `n` turns each thread has no work, or `n` less than at first. -/
theorem turns_work (h : Kept config base s) (sizes : QueueSizes) (declarations : Declarations)
    (writer reader : ℕ → Option Failure) (n : ℕ) :
    (WriterDone (s.run config sizes declarations (turns writer reader n)).store ∨
      writerWork (s.run config sizes declarations (turns writer reader n)).store + n ≤
        writerWork s.store) ∧
    (ReaderDone (s.run config sizes declarations (turns writer reader n)).store ∨
      readerWork (s.run config sizes declarations (turns writer reader n)).store + n ≤
        readerWork s.store) := by
  induction n with
  | zero => exact ⟨.inr (Nat.le_refl _), .inr (Nat.le_refl _)⟩
  | succ n ih =>
    have hsplit : s.run config sizes declarations (turns writer reader (n + 1)) =
        ((s.run config sizes declarations (turns writer reader n)).step config sizes declarations
          (.writer (writer n))).step config sizes declarations (.reader (reader n)) := by
      unfold System.run turns
      rw [List.range_succ, List.flatMap_append, List.foldl_append]
      rfl
    have hkept := h.run sizes declarations (turns writer reader n)
    rw [hsplit]
    generalize s.run config sizes declarations (turns writer reader n) = t at ih hkept
    have hkept' := hkept.writerTurn sizes declarations (writer n)
    -- the reader leaves the writer's queue alone, and the writer the reader's
    have hreaderLeaves : ∀ impl, (readerTurn (reader n) impl).writes = impl.writes ∧
        (readerTurn (reader n) impl).writer = impl.writer := by
      intro impl
      obtain ⟨_, _, _, _, _, heq, -⟩ := readerTurn_frame (reader n) impl
      rw [heq]
      exact ⟨rfl, rfl⟩
    have hwriterLeaves : (writerTurn config (writer n) t.store).reads = t.store.reads ∧
        (writerTurn config (writer n) t.store).reader = t.store.reader := by
      have hturn := writerTurn_turn config (writer n) hkept.guarded.sound
        hkept.guarded.standing.error
      generalize writerTurn config (writer n) t.store = impl' at hturn
      cases hturn with
      | quiet hquiet hlog => exact ⟨hquiet.reads, hquiet.reader⟩
      | takes hwriter hwrites => exact ⟨rfl, rfl⟩
      | appends hwriter => exact ⟨rfl, rfl⟩
      | @settles batch error hwriter =>
        obtain ⟨-, hreads, hreader, -⟩ := Books.settle_counts batch error t.store
        exact ⟨hreads, hreader⟩
      | abandons hwriter houtcome => exact ⟨rfl, rfl⟩
    obtain ⟨hwrites, hwriter⟩ := hreaderLeaves (writerTurn config (writer n) t.store)
    constructor
    · show WriterDone (readerTurn _ (writerTurn config (writer n) t.store)) ∨
        writerWork (readerTurn _ (writerTurn config (writer n) t.store)) + (n + 1) ≤ _
      unfold WriterDone writerWork
      rw [hwrites, hwriter]
      rcases ih.1 with hdone | hwork
      · exact .inl (writerTurn_done config (writer n) hdone hkept.guarded.sound
          hkept.guarded.standing.error)
      · rcases writerTurn_work config (writer n) hkept.guarded.sound with hdone | hless
        · exact .inl hdone
        · unfold writerWork at hwork hless
          right
          omega
    · show ReaderDone (readerTurn (reader n) (writerTurn config (writer n) t.store)) ∨
        readerWork (readerTurn (reader n) (writerTurn config (writer n) t.store)) + (n + 1) ≤ _
      have hsame : readerWork (writerTurn config (writer n) t.store) = readerWork t.store := by
        unfold readerWork
        rw [hwriterLeaves.1, hwriterLeaves.2]
      rcases ih.2 with hdone | hwork
      · left
        apply readerTurn_done
        unfold ReaderDone
        rw [hwriterLeaves.1, hwriterLeaves.2]
        exact hdone
      · rcases readerTurn_work (reader n) hkept'.reader with hdone | hless
        · exact .inl hdone
        · right
          have hless' : readerWork (readerTurn (reader n) (writerTurn config (writer n) t.store)) <
              readerWork (writerTurn config (writer n) t.store) := hless
          omega

/-- **The threads finish whatever is queued**, whatever the outcomes are. -/
theorem turns_finish (h : Kept config base s) (sizes : QueueSizes) (declarations : Declarations)
    (writer reader : ℕ → Option Failure) :
    ∃ n, WriterDone (s.run config sizes declarations (turns writer reader n)).store ∧
      ReaderDone (s.run config sizes declarations (turns writer reader n)).store := by
  have hturns := turns_work h sizes declarations writer reader
    (writerWork s.store + readerWork s.store + 1)
  refine ⟨_, hturns.1.resolve_right ?_, hturns.2.resolve_right ?_⟩
  · omega
  · omega

end Turns

/-! ### What the history says -/

/-- The history with the commit that is not counted yet. -/
def System.history (s : System) : List Entry :=
  s.log ++ (if s.store.writer.appended = [] then [] else [.committed s.store.writer.appended])

theorem recordsOf_history (s : System) :
    s.history.flatMap committedBatch = s.log.flatMap committedBatch ++ s.store.writer.appended := by
  unfold System.history
  rw [List.flatMap_append]
  split
  · rename_i hempty
    rw [hempty]
    rfl
  · simp [committedBatch]

/-- A batch is committed after a failure only if a start lies between. -/
theorem Ordered.started {log prior middle later : List Entry} {failed committed : List Command}
    (h : Ordered log)
    (heq : log = prior ++ .failed failed :: middle ++ .committed committed :: later) :
    .started ∈ middle := by
  have hclosed := h (prior ++ .failed failed :: middle) committed later heq
  by_contra hnot
  have hopen : ∀ middle, .started ∉ middle →
      openFailure (prior ++ .failed failed :: middle) = true := by
    intro middle
    induction middle using List.reverseRecOn with
    | nil =>
      intro _
      exact openFailure_append_failed prior failed
    | append_singleton middle entry ih =>
      intro hstarted
      rw [List.mem_append, List.mem_singleton, not_or] at hstarted
      have hprior := ih hstarted.1
      rw [← List.cons_append, ← List.append_assoc]
      cases entry with
      | committed batch =>
        rw [openFailure_append_committed]
        exact hprior
      | failed batch => exact openFailure_append_failed _ _
      | started => exact absurd rfl hstarted.2
  rw [hopen middle hnot] at hclosed
  exact Bool.false_ne_true hclosed.symm

/-- The state of the queues, for a store that was opened on the live records `base`. -/
structure Balanced (base : LiveRecords) (s : System) : Prop where
  /-- every accepted publication was committed, has failed, or is still queued or being written,
  in the order of publication -/
  accounted : s.accepted = s.log.flatMap settledBatch ++
    publications (s.store.writer.inProgress ++ s.store.writes)
  /-- the live records are those of whole publications, in their order, with consecutive ids -/
  committedWhole : ∃ published : List Command, published.Sublist s.accepted ∧
    published = s.history.flatMap committedBatch ∧
    s.store.volumes.rows = base.rows ++ numberRecords base.lastId (recordsOf published) ∧
    s.store.volumes.lastId = base.lastId + (recordsOf published).length
  /-- no batch is committed between a failure and the next start -/
  blocked : ∀ prior failed middle committed later,
    s.history = prior ++ .failed failed :: middle ++ .committed committed :: later →
      .started ∈ middle
  queuedEver : s.store.status.queued = rowCount s.accepted
  rows : s.store.status.queued = s.store.status.committed +
    rowCount (s.log.flatMap failedBatch) +
      (rowCount s.store.writer.inProgress + rowCount s.store.writes)
  committedRows : s.store.status.committed = rowCount (s.log.flatMap committedBatch)
  queueBytes : s.store.status.queueBytes =
    byteCount s.store.writes + byteCount s.store.writer.inProgress
  queuedRows : s.store.queuedRows = rowCount s.store.writes
  /-- the pending tasks are the accepted ones whose completion was not returned -/
  pendingTasks : ∃ waiting : List (ℕ × Operation),
    (s.returned.map Completion.key ++ waiting).Perm s.tasks ∧
      s.store.pendingTasks = waiting.length
  nonneg : 0 ≤ s.store.status.queueBytes ∧ 0 ≤ s.store.queuedRows ∧ 0 ≤ s.store.pendingTasks
  /-- tasks are different, and each is unfinished or has one completion -/
  distinct : (s.tasks.map Prod.fst).Nodup
  completed : ((s.returned ++ s.store.completions).map Completion.key ++ unfinished s.store).Perm
    s.tasks

theorem rowCount_settled (log : List Entry) :
    rowCount (log.flatMap settledBatch) =
      rowCount (log.flatMap committedBatch) + rowCount (log.flatMap failedBatch) := by
  induction log with
  | nil => rfl
  | cons entry log ih =>
    rw [List.flatMap_cons, List.flatMap_cons, List.flatMap_cons, rowCount_append, rowCount_append,
      rowCount_append, ih]
    cases entry with
    | committed batch =>
      have hnone : rowCount (failedBatch (.committed batch)) = 0 := rfl
      have hsame : settledBatch (.committed batch) = committedBatch (.committed batch) := rfl
      rw [hnone, hsame]
      omega
    | failed batch =>
      have hnone : rowCount (committedBatch (.failed batch)) = 0 := rfl
      have hsame : settledBatch (.failed batch) = failedBatch (.failed batch) := rfl
      rw [hnone, hsame]
      omega
    | started =>
      have hnone : rowCount (settledBatch .started) = 0 ∧ rowCount (committedBatch .started) = 0 ∧
          rowCount (failedBatch .started) = 0 := ⟨rfl, rfl, rfl⟩
      omega

theorem committed_sublist_settled (log : List Entry) :
    (log.flatMap committedBatch).Sublist (log.flatMap settledBatch) := by
  induction log with
  | nil => exact .refl _
  | cons entry log ih =>
    rw [List.flatMap_cons, List.flatMap_cons]
    apply List.Sublist.append _ ih
    cases entry with
    | committed batch => exact .refl _
    | failed batch => exact List.nil_sublist _
    | started => exact .refl _

theorem appended_sublist (writer : Writer) :
    writer.appended.Sublist (publications writer.inProgress) := by
  cases writer with
  | settling batch error =>
    show (if error = "" then publications batch else []).Sublist (publications batch)
    split
    · exact .refl _
    · exact List.nil_sublist _
  | _ => exact List.nil_sublist _

theorem Guarded.history {s : System} (h : Guarded s.log s.store) : Ordered s.history := by
  unfold System.history
  split
  · rw [List.append_nil]
    exact h.ordered
  · rename_i happended
    apply h.ordered.append
    intro _ _
    have hclear := h.clear
    cases hwriter : s.store.writer with
    | settling batch error =>
      rw [hwriter] at happended hclear
      have herror : error = "" := by
        by_contra hne
        exact happended (if_neg hne)
      refine hclear ?_ herror
      have hpublications : publications batch ≠ [] := by
        intro hempty
        apply happended
        show (if error = "" then publications batch else []) = []
        rw [if_pos herror, hempty]
      obtain ⟨command, hcommand⟩ := List.exists_mem_of_ne_nil _ hpublications
      rw [publishing_iff]
      exact ⟨command, List.mem_of_mem_filter hcommand, by
        simpa using List.of_mem_filter hcommand⟩
    | _ =>
      rw [hwriter] at happended
      exact absurd rfl happended

theorem Kept.balanced {config : Config} {base : LiveRecords} {s : System}
    (h : Kept config base s) : Balanced base s := by
  have hrows : s.store.status.queued = s.store.status.committed +
      rowCount (s.log.flatMap failedBatch) +
        (rowCount s.store.writer.inProgress + rowCount s.store.writes) := by
    rw [h.books.queued, h.books.entire, rowCount_append, rowCount_settled, h.books.committed,
      Books.rowCount_plain h.books.plain, rowCount_append]
  have hbytes : s.store.status.queueBytes =
      (byteCount s.store.writes + byteCount s.store.writer.inProgress : ℕ) := by
    rw [h.books.queueBytes, byteCount_append, Nat.add_comm]
  have hpending : s.store.pendingTasks =
      ((s.store.completions.map Completion.key ++ unfinished s.store).length : ℤ) := by
    have hlength := h.tasks.perm.length_eq
    rw [List.map_append, List.append_assoc, List.length_append, List.length_map] at hlength
    rw [h.tasks.pending]
    omega
  refine ⟨h.books.entire, ⟨s.history.flatMap committedBatch, ?_, rfl, ?_, ?_⟩, ?_, h.books.queued,
    hrows, h.books.committed, ?_, h.books.queuedRows, ⟨_, ?_, hpending⟩, ⟨?_, ?_, ?_⟩,
    h.tasks.nodup, h.tasks.perm⟩
  · rw [recordsOf_history, h.books.entire, publications_append]
    apply (committed_sublist_settled s.log).append
    exact (appended_sublist _).trans (List.sublist_append_left _ _)
  · rw [recordsOf_history]
    exact h.books.rows
  · rw [recordsOf_history]
    exact h.books.lastId
  · exact fun _ _ _ _ _ heq => h.guarded.history.started heq
  · rw [hbytes]
    push_cast
    rfl
  · rw [← List.append_assoc, ← List.map_append]
    exact h.tasks.perm
  · rw [hbytes]
    exact Int.natCast_nonneg _
  · rw [h.books.queuedRows]
    exact Int.natCast_nonneg _
  · rw [hpending]
    exact Int.natCast_nonneg _

/-- **The queues balance in every run.**  Over any interleaving of the callers and the two
threads, with any outcomes of the calls of the databases, the counters are those of the
queues, publications are committed whole and in order, and none after a failure before the
next start; and the turns of the threads bring every task to its one completion. -/
theorem store_balanced (config : Config) (sizes : QueueSizes) (declarations : Declarations)
    (recording : Bool) (volumes : LiveRecords) (events : List Event) :
    Balanced volumes ((System.opened recording volumes).run config sizes declarations events) ∧
      ∀ writer reader : ℕ → Option Failure, ∃ n,
        let s := ((System.opened recording volumes).run config sizes declarations events).run config
          sizes declarations (turns writer reader n)
        s.store.writes = [] ∧ s.store.writer.inProgress = [] ∧
          ((s.returned ++ s.store.completions).map Completion.key).Perm s.tasks := by
  have hopened : Kept config volumes (System.opened recording volumes) :=
    Kept.opened recording volumes
  have hkept := hopened.run sizes declarations events
  refine ⟨hkept.balanced, fun writer reader => ?_⟩
  obtain ⟨n, hwriter, hreader⟩ := turns_finish hkept sizes declarations writer reader
  have hperm := (hkept.run sizes declarations (turns writer reader n)).tasks.perm
  refine ⟨n, hwriter.1, hwriter.2, ?_⟩
  have hnone : unfinished (((System.opened recording volumes).run config sizes declarations
      events).run config sizes declarations (turns writer reader n)).store = [] := by
    unfold unfinished
    rw [hwriter.1, hwriter.2, hreader.1, hreader.2]
    rfl
  rw [hnone, List.append_nil] at hperm
  exact hperm

end ProtoScope.Storage.Store
