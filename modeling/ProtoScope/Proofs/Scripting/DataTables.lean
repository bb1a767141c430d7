/-
Whether a history table shows what its last query says.

The table's task is the only link between the page and the storage: it is set with the page
that loads and cleared with every page that does not.  A completion finds its table through
the task map, and counts only under the table's own task, so the view it is paired with is
the one its query was made from.  The lease is taken with the page it belongs to.
-/
import ProtoScope.Scripting.DataTableSession

namespace ProtoScope.Scripting

open ProtoScope.Data
open ProtoScope.Storage (Query RecordSnapshot)
open DataTableSession

/-! ### Pages of the query service -/

section Service

open ProtoScope.Storage ProtoScope.Storage.RecordQueryService

/-- Every record of a page has its id and its schema. -/
structure PageComplete (page : Page) : Prop where
  ids : page.rowIds.length = page.records.length
  schemas : ∀ record ∈ page.records, (page.schemas.lookup record.schemaVersion.toNat).isSome = true

theorem lookup_append_isSome {schemas more : List (ℕ × Schema)} {version : ℕ}
    (h : (schemas.lookup version).isSome = true) :
    ((schemas ++ more).lookup version).isSome = true := by
  rw [List.lookup_append, Option.isSome_or, h, Bool.true_or]

theorem addBytes_ok {memoryBudget size : ℕ} {page page' : Page}
    (h : page.addBytes memoryBudget size = .ok page') :
    page'.records = page.records ∧ page'.rowIds = page.rowIds ∧ page'.schemas = page.schemas := by
  obtain ⟨-, h⟩ := invalid_of_ok h
  cases h
  exact ⟨rfl, rfl, rfl⟩

section

variable {memory : MemorySizes} {memoryBudget : ℕ} {snapshot : RecordSnapshot} {page page' : Page}

theorem addSchema_ok {version : ℕ}
    (h : page.addSchema memory memoryBudget snapshot version = .ok page')
    (hcomplete : PageComplete page) :
    PageComplete page' ∧ page'.records = page.records ∧
      (page'.schemas.lookup version).isSome = true := by
  unfold Page.addSchema at h
  split at h
  · rename_i hthere
    cases h
    exact ⟨hcomplete, rfl, hthere⟩
  · split at h
    · cases h
    · rename_i schema _
      obtain ⟨sized, hbytes, h⟩ := bind_eq_ok.mp h
      cases h
      obtain ⟨hrecords, hids, hschemas⟩ := addBytes_ok hbytes
      dsimp only
      rw [hschemas]
      refine ⟨⟨?_, ?_⟩, hrecords, ?_⟩
      · dsimp only
        rw [hids, hrecords]
        exact hcomplete.ids
      · intro record hmem
        replace hmem : record ∈ sized.records := hmem
        rw [hrecords] at hmem
        exact lookup_append_isSome (hcomplete.schemas record hmem)
      · rw [List.lookup_append, Option.isSome_or, List.lookup_cons_self]
        exact Bool.or_true _

theorem add_ok {record : Record} {id : ℤ}
    (h : page.add memory memoryBudget snapshot record id = .ok page')
    (hcomplete : PageComplete page) : PageComplete page' := by
  obtain ⟨described, hschema, h⟩ := bind_eq_ok.mp h
  obtain ⟨hdescribed, -, hthere⟩ := addSchema_ok hschema hcomplete
  obtain ⟨sized, hbytes, h⟩ := bind_eq_ok.mp h
  cases h
  obtain ⟨hrecords, hids, hschemas⟩ := addBytes_ok hbytes
  constructor
  · dsimp only
    rw [hids, hrecords, List.length_append, List.length_append, hdescribed.ids]
    rfl
  · intro other hmem
    replace hmem : other ∈ sized.records ++ [record] := hmem
    dsimp only
    rw [hschemas]
    rw [hrecords] at hmem
    obtain hmem | hmem := List.mem_append.mp hmem
    · exact hdescribed.schemas other hmem
    · rw [List.mem_singleton.mp hmem]
      exact hthere

theorem collect_ok {sort : Option FieldSort} (limit : ℕ) {merge merge' : Storage.Merge}
    (h : collect memory memoryBudget snapshot sort limit page merge = .ok (page', merge'))
    (hcomplete : PageComplete page) : PageComplete page' := by
  induction limit generalizing page merge with
  | zero =>
    cases h
    exact hcomplete
  | succ limit ih =>
    unfold collect at h
    split at h
    · cases h
      exact hcomplete
    · obtain ⟨current, -, h⟩ := bind_eq_ok.mp h
      obtain ⟨added, hadd, h⟩ := bind_eq_ok.mp h
      obtain ⟨advanced, -, h⟩ := bind_eq_ok.mp h
      exact ih h (add_ok hadd hcomplete)

end

/-- A query answers for its snapshot, with records that have their ids and schemas. -/
theorem query_ok {sqlite : Sqlite} {memory : MemorySizes} {memoryBudget : ℕ}
    {directory : RecordDirectory} {lease : RecordSnapshot} {query : Query}
    {completion : Storage.Completion}
    (h : RecordQueryService.query sqlite memory memoryBudget directory lease query =
      .ok completion) :
    completion.snapshot = lease.token ∧ completion.rowIds.length = completion.records.length ∧
      ∀ record ∈ completion.records,
        (completion.schemas.lookup record.schemaVersion.toNat).isSome = true := by
  obtain ⟨created, -, h⟩ := bind_eq_ok.mp h
  obtain ⟨skipped, -, h⟩ := bind_eq_ok.mp h
  obtain ⟨⟨page, merge⟩, hcollect, h⟩ := bind_eq_ok.mp h
  have hcomplete := collect_ok query.limit hcollect ⟨rfl, fun _ hmem => by cases hmem⟩
  cases h
  exact ⟨rfl, hcomplete.ids, hcomplete.schemas⟩

end Service

open Table DataTableSession

/-! ### Completions -/

theorem completionRows_some {schemas : List (ℕ × Schema)} {records : List Record}
    {rowIds : List ℤ} (hids : rowIds.length = records.length)
    (hschemas : ∀ record ∈ records, (schemas.lookup record.schemaVersion.toNat).isSome = true) :
    ∃ rows, completionRows schemas records rowIds = some rows := by
  induction records generalizing rowIds with
  | nil => exact ⟨[], rfl⟩
  | cons record records ih =>
    cases rowIds with
    | nil => cases hids
    | cons id rowIds =>
      obtain ⟨schema, hschema⟩ :=
        Option.isSome_iff_exists.mp (hschemas record List.mem_cons_self)
      obtain ⟨rows, hrows⟩ := ih (Nat.succ.inj hids) fun other hmem =>
        hschemas other (List.mem_cons_of_mem _ hmem)
      refine ⟨{ id := id, record := record, schema := schema } :: rows, ?_⟩
      unfold completionRows
      rw [hschema, Option.bind_eq_bind, Option.bind_some, hrows]
      rfl

/-- The rows an outcome has for a table. -/
def rowsOf (outcome : StoreOutcome) : List TableRow :=
  if outcome.completion.ok then
    (completionRows outcome.completion.schemas outcome.completion.records
      outcome.completion.rowIds).getD []
  else []

theorem completion_rows (outcome : StoreOutcome) :
    (if outcome.completion.ok then completionRows outcome.completion.schemas
      outcome.completion.records outcome.completion.rowIds else some []) =
      some (rowsOf outcome) := by
  cases outcome with
  | queried lease page answer =>
    obtain ⟨sqlite, memory, budget, directory, query, hquery⟩ := answer
    obtain ⟨-, hids, hschemas⟩ := query_ok hquery
    obtain ⟨rows, hrows⟩ := completionRows_some hids hschemas
    unfold rowsOf StoreOutcome.completion
    dsimp only
    rw [if_pos rfl, if_pos rfl, hrows]
    rfl
  | exported lease processed => rfl
  | failed error => rfl

/-- A completion names the snapshot its lease is for. -/
theorem completion_snapshot (outcome : StoreOutcome) :
    outcome.completion.snapshot = outcome.completion.snapshotLease.map RecordSnapshot.token := by
  cases outcome with
  | queried lease page answer =>
    obtain ⟨sqlite, memory, budget, directory, query, hquery⟩ := answer
    exact congrArg some (query_ok hquery).1
  | exported lease processed => rfl
  | failed error => rfl

theorem completeQuery_eq (table : Table) (outcome : StoreOutcome) :
    table.completeQuery outcome.completion =
      { table with
        task := 0
        snapshotLease := outcome.completion.snapshotLease }.replacePage {
          rows := rowsOf outcome
          snapshot := outcome.completion.snapshot
          more := outcome.completion.more
          error := outcome.completion.error } := by
  unfold completeQuery
  rw [completion_rows]

/-! ### The invariant -/

/-- What the displayed page has to do with the table. -/
structure PageOk (answers : Answers) (table : Table) (page : TablePage) : Prop where
  offset : page.offset = table.view.offset
  limit : page.limit = table.view.limit
  revision : page.revision = table.revision
  loading : page.loading = true ↔ table.task ≠ 0
  rows : page.rows ≠ [] → ∃ task query, table.submitted = some (task, query) ∧
    page.rows = rowsOf (answers task)
  leased : page.snapshot ≠ none → page.snapshot = table.snapshotLease.map RecordSnapshot.token

/-- What the submitted query of a table has to do with the table. -/
structure SubmittedOk (session : DataTableSession) (table : Table) (task : ℕ)
    (query : TableQuery) : Prop where
  offset : query.query.offset = table.view.offset
  limit : query.query.limit = table.view.limit
  earlier : task < session.nextTask
  running : table.task = task ∨ table.task = 0 ∧ task ∉ session.outstanding

/-- What the running task of a table is: its last query, which the storage has yet to
complete and the task map lists. -/
structure RunningOk (session : DataTableSession) (id : String) (table : Table) : Prop where
  submitted : ∃ query, table.submitted = some (table.task, query)
  outstanding : table.task ∈ session.outstanding
  listed : session.tasks.lookup table.task = some id

structure TableOk (answers : Answers) (session : DataTableSession) (id : String) (table : Table) :
    Prop where
  page : ∀ page, table.page = some page → PageOk answers table page
  shown : table.page = none → table.task = 0
  clean : table.page ≠ none → table.dirty = false
  submitted : ∀ task query, table.submitted = some (task, query) →
    SubmittedOk session table task query
  running : table.task ≠ 0 → RunningOk session id table

/-- What the storage and the export tasks of a session are to its tables. -/
structure SessionOk (answers : Answers) (session : DataTableSession) : Prop where
  tables : ∀ id table, session.tables id = some table → TableOk answers session id table
  positive : 0 < session.nextTask
  earlier : ∀ task ∈ session.outstanding, 0 < task ∧ task < session.nextTask
  nodup : session.outstanding.Nodup
  exports : ∀ task id, session.exportTasks.lookup task = some id → task < session.nextTask ∧
    ∀ id table, session.tables id = some table → table.task ≠ 0 → table.task ≠ task

/-! ### One table -/

section Tables

variable {answers : Answers} {session : DataTableSession} {id : String} {table : Table}

theorem SubmittedOk.of_eq {table' : Table} {task : ℕ} {query : TableQuery}
    (h : SubmittedOk session table task query) (hview : table'.view = table.view)
    (htask : table'.task = table.task) : SubmittedOk session table' task query where
  offset := by rw [hview]; exact h.offset
  limit := by rw [hview]; exact h.limit
  earlier := h.earlier
  running := by rw [htask]; exact h.running

theorem RunningOk.of_eq {table' : Table} (h : RunningOk session id table)
    (hsubmitted : table'.submitted = table.submitted) (htask : table'.task = table.task) :
    RunningOk session id table' where
  submitted := by rw [hsubmitted, htask]; exact h.submitted
  outstanding := by rw [htask]; exact h.outstanding
  listed := by rw [htask]; exact h.listed

/-- What a page says of a table holds once it replaces the displayed one. -/
theorem replacePage_ok {next : TablePage} (hloading : next.loading = true ↔ table.task ≠ 0)
    (hrows : next.rows ≠ [] → ∃ task query, table.submitted = some (task, query) ∧
      next.rows = rowsOf (answers task))
    (hleased : next.snapshot ≠ none →
      next.snapshot = table.snapshotLease.map RecordSnapshot.token)
    (hsubmitted : ∀ task query, table.submitted = some (task, query) →
      SubmittedOk session table task query)
    (hrunning : table.task ≠ 0 → RunningOk session id table) :
    TableOk answers session id (table.replacePage next) where
  page := by
    intro page hpage
    obtain rfl := Option.some.inj hpage
    exact ⟨rfl, rfl, rfl, hloading, hrows, hleased⟩
  shown h := by cases h
  clean _ := rfl
  submitted task query h := (hsubmitted task query h).of_eq rfl rfl
  running h := (hrunning h).of_eq rfl rfl

theorem TableOk.showPage (hok : TableOk answers session id table) :
    TableOk answers session id table.showPage := by
  unfold Table.showPage
  split
  · rename_i hstale
    have hnone : table.page = none := by
      cases hpage : table.page with
      | none => rfl
      | some page =>
        rw [hpage, hok.clean (by rw [hpage]; exact Option.some_ne_none page)] at hstale
        cases hstale
    have htask := hok.shown hnone
    exact {
      page := by
        intro page hpage
        obtain rfl := Option.some.inj hpage
        exact ⟨rfl, rfl, rfl, ⟨fun h => (by cases h), fun h => absurd htask h⟩,
          fun h => absurd rfl h, fun h => absurd rfl h⟩
      shown := fun h => by cases h
      clean := fun _ => rfl
      submitted := fun task query h => (hok.submitted task query h).of_eq rfl rfl
      running := fun h => absurd htask h }
  · exact hok

theorem showPage_task (table : Table) : table.showPage.task = table.task := by
  unfold Table.showPage
  split <;> rfl

theorem showPage_lease (table : Table) : table.showPage.snapshotLease = table.snapshotLease := by
  unfold Table.showPage
  split <;> rfl

/-- What is displayed is there, and names the snapshot that is held. -/
theorem TableOk.current (hok : TableOk answers session id table) :
    table.showPage.page = some table.currentPage ∧
      PageOk answers table.showPage table.currentPage := by
  have hshown : table.showPage.page = some table.currentPage := by
    unfold currentPage
    cases hpage : table.showPage.page with
    | none =>
      unfold Table.showPage at hpage
      split at hpage
      · cases hpage
      · rename_i hstale
        rw [hpage] at hstale
        exact absurd rfl hstale
    | some page => rfl
  exact ⟨hshown, hok.showPage.page _ hshown⟩

theorem TableOk.currentSnapshot (hok : TableOk answers session id table)
    (h : table.currentPage.snapshot ≠ none) :
    table.currentPage.snapshot = table.snapshotLease.map RecordSnapshot.token := by
  have hleased := hok.current.2.leased h
  rwa [showPage_lease] at hleased

/-- The canceled table shows an empty page and waits for nothing. -/
theorem TableOk.canceled (hok : TableOk answers session id table) :
    TableOk answers session id table.canceled := by
  unfold Table.canceled
  refine replacePage_ok ⟨fun h => (by cases h), fun h => absurd rfl h⟩ (fun h => absurd rfl h)
    ?_ (fun task query h => by cases h) fun h => absurd rfl h
  intro h
  show _ = table.showPage.snapshotLease.map RecordSnapshot.token
  rw [showPage_lease]
  exact hok.currentSnapshot h

/-- The session may change around a table, as long as its own task is not touched. -/
theorem TableOk.frame {session' : DataTableSession} (hok : TableOk answers session id table)
    (hnext : session.nextTask ≤ session'.nextTask)
    (hgone : ∀ task < session.nextTask, task ∉ session.outstanding → task ∉ session'.outstanding)
    (hrunning : table.task ≠ 0 → RunningOk session id table → RunningOk session' id table) :
    TableOk answers session' id table where
  page := hok.page
  shown := hok.shown
  clean := hok.clean
  submitted task query h := {
    offset := (hok.submitted task query h).offset
    limit := (hok.submitted task query h).limit
    earlier := lt_of_lt_of_le (hok.submitted task query h).earlier hnext
    running := (hok.submitted task query h).running.imp_right fun hdone =>
      ⟨hdone.1, hgone task (hok.submitted task query h).earlier hdone.2⟩ }
  running h := hrunning h (hok.running h)

/-- The task of a table is older than the session's next one. -/
theorem TableOk.task_lt (hok : TableOk answers session id table) (h : table.task ≠ 0) :
    table.task < session.nextTask := by
  obtain ⟨query, hquery⟩ := (hok.running h).submitted
  exact (hok.submitted _ _ hquery).earlier

/-- The view of a table may change before its page does. -/
theorem currentPage_snapshot (view : TableView) :
    { table with view := view }.currentPage.snapshot = table.currentPage.snapshot := by
  obtain ⟨config, shownView, page, lease, task, revision, dirty⟩ := table
  cases page with
  | none => rfl
  | some page => cases dirty <;> rfl

theorem changeView_ok {action : TableAction} {table' : Table}
    (h : table.changeView action = .ok table') :
    ∃ view, table' = { table with view := view } := by
  cases action with
  | refresh => exact ⟨_, (Except.ok.inj h).symm⟩
  | view view =>
    obtain ⟨_, -, h⟩ := bind_eq_ok.mp h
    exact ⟨_, (Except.ok.inj h).symm⟩
  | cancel => exact ⟨table.view, (Except.ok.inj h).symm⟩

/-- A new query reads the snapshot that is held, or none. -/
theorem TableOk.nextSnapshot (hok : TableOk answers session id table) (action : TableAction)
    (view : TableView) (h : { table with view := view }.nextSnapshot action ≠ none) :
    { table with view := view }.nextSnapshot action =
      table.snapshotLease.map RecordSnapshot.token := by
  have hcurrent : { table with view := view }.currentPage.snapshot ≠ none →
      { table with view := view }.currentPage.snapshot =
        table.snapshotLease.map RecordSnapshot.token := by
    rw [currentPage_snapshot]
    exact hok.currentSnapshot
  cases action with
  | refresh => exact absurd rfl h
  | view _ => exact hcurrent h
  | cancel => exact hcurrent h

theorem submitFailed_ok {snapshot : Option ℤ} (error : String)
    (hleased : snapshot ≠ none → snapshot = table.snapshotLease.map RecordSnapshot.token) :
    TableOk answers session id (table.submitFailed snapshot error) :=
  replacePage_ok ⟨fun h => (by cases h), fun h => absurd rfl h⟩ (fun h => absurd rfl h)
    hleased (fun task query h => by cases h) fun h => absurd rfl h

/-- The query of a table is with the storage under the session's next task. -/
theorem submit_ok {snapshot : Option ℤ} (hpositive : 0 < session.nextTask)
    (hleased : snapshot ≠ none → snapshot = table.snapshotLease.map RecordSnapshot.token) :
    TableOk answers
      { session.allocate with tasks := (session.nextTask, id) :: session.tasks } id
      (table.submit session.nextTask snapshot) := by
  refine replacePage_ok ⟨fun _ => hpositive.ne', fun _ => rfl⟩ (fun h => absurd rfl h) hleased
    ?_ fun _ => ⟨⟨_, rfl⟩, List.mem_cons_self, List.lookup_cons_self⟩
  intro task query h
  obtain ⟨rfl, rfl⟩ := Prod.mk.inj (Option.some.inj h)
  exact ⟨rfl, rfl, Nat.lt_succ_self _, .inl rfl⟩

/-- A completed query shows its rows, under the lease of its snapshot. -/
theorem TableOk.completed (hok : TableOk answers session id table)
    (hnodup : session.outstanding.Nodup) (htask : table.task ≠ 0) (tasks : List (ℕ × String)) :
    TableOk answers
      { session with outstanding := session.outstanding.erase table.task, tasks := tasks } id
      (table.completeQuery (answers table.task).completion) := by
  rw [completeQuery_eq]
  refine replacePage_ok ⟨fun h => (by cases h), fun h => absurd rfl h⟩ ?_
    (fun _ => completion_snapshot _) ?_ fun h => absurd rfl h
  · intro _
    obtain ⟨query, hquery⟩ := (hok.running htask).submitted
    exact ⟨table.task, query, hquery, rfl⟩
  · intro task query h
    have hsubmitted := hok.submitted task query h
    refine ⟨hsubmitted.offset, hsubmitted.limit, hsubmitted.earlier, .inr ⟨rfl, ?_⟩⟩
    obtain hrunning | ⟨hrunning, -⟩ := hsubmitted.running
    · rw [← hrunning]
      exact hnodup.not_mem_erase
    · exact absurd hrunning htask

/-! ### Exports -/

/-- An export may change a table in what is about exports only. -/
theorem TableOk.exportChanged {table' : Table} (hok : TableOk answers session id table)
    (hpage : table'.page = table.page ∧ table'.view = table.view ∧
      table'.revision = table.revision ∧ table'.dirty = table.dirty)
    (hquery : table'.task = table.task ∧ table'.submitted = table.submitted ∧
      table'.snapshotLease = table.snapshotLease) :
    TableOk answers session id table' where
  page page h := by
    rw [hpage.1] at h
    have hpage' := hok.page page h
    exact {
      offset := by rw [hpage.2.1]; exact hpage'.offset
      limit := by rw [hpage.2.1]; exact hpage'.limit
      revision := by rw [hpage.2.2.1]; exact hpage'.revision
      loading := by rw [hquery.1]; exact hpage'.loading
      rows := by rw [hquery.2.1]; exact hpage'.rows
      leased := by rw [hquery.2.2]; exact hpage'.leased }
  shown h := by
    rw [hpage.1] at h
    rw [hquery.1]
    exact hok.shown h
  clean h := by
    rw [hpage.1] at h
    rw [hpage.2.2.2]
    exact hok.clean h
  submitted task query h := by
    rw [hquery.2.1] at h
    exact (hok.submitted task query h).of_eq hpage.2.1 hquery.1
  running h := by
    rw [hquery.1] at h
    exact (hok.running h).of_eq hquery.2.1 hquery.1

theorem TableOk.exportError (hok : TableOk answers session id table) (error : String) :
    TableOk answers session id (table.exportError error) :=
  hok.exportChanged ⟨rfl, rfl, rfl, rfl⟩ ⟨rfl, rfl, rfl⟩

theorem TableOk.completeExport (hok : TableOk answers session id table)
    (result : StoreCompletion) : TableOk answers session id (table.completeExport result) :=
  hok.exportChanged ⟨rfl, rfl, rfl, rfl⟩ ⟨rfl, rfl, rfl⟩

theorem TableOk.dialogEnded (hok : TableOk answers session id table) (task : ℕ)
    (outcome : DialogOutcome) :
    TableOk answers session id (table.dialogEnded task outcome) := by
  cases outcome with
  | notPermitted => exact hok.exportError _
  | closed error => exact hok.exportError _
  | invalidSelection => exact hok.exportError _
  | selected submitted =>
    cases submitted with
    | error error => exact hok.exportError _
    | ok done => exact hok.exportChanged ⟨rfl, rfl, rfl, rfl⟩ ⟨rfl, rfl, rfl⟩

/-- A prepared export is one of the table that is shown. -/
theorem prepareExport_ok {format : ExportFormat} {table' : Table}
    (h : table.prepareExport format = .ok table') :
    table.exportReady = true ∧ table'.exportLease = table.showPage.snapshotLease ∧
      table'.exportQuery.snapshot = table.currentPage.snapshot ∧
      (table'.page = table.showPage.page ∧ table'.view = table.showPage.view ∧
        table'.revision = table.showPage.revision ∧ table'.dirty = table.showPage.dirty) ∧
      table'.task = table.showPage.task ∧ table'.submitted = table.showPage.submitted ∧
        table'.snapshotLease = table.showPage.snapshotLease := by
  unfold Table.prepareExport at h
  split at h
  · cases h
  · split at h
    · cases h
    · rename_i hready
      cases h
      exact ⟨by simpa using hready, rfl, rfl, ⟨rfl, rfl, rfl, rfl⟩, rfl, rfl, rfl⟩

/-- A prepared export freezes the snapshot its lease is for. -/
theorem TableOk.prepareExport {format : ExportFormat} {table' : Table}
    (hok : TableOk answers session id table) (h : table.prepareExport format = .ok table') :
    TableOk answers session id table' ∧ ∃ lease, table'.exportLease = some lease ∧
      table'.exportQuery.snapshot = some lease.token := by
  obtain ⟨hready, hexport, hquery, hpage, hrest⟩ := prepareExport_ok h
  have hsome : table.currentPage.snapshot ≠ none := by
    intro hnone
    unfold exportReady at hready
    rw [hnone, Option.isSome_none, Bool.and_false] at hready
    cases hready
  have hleased := hok.currentSnapshot hsome
  refine ⟨hok.showPage.exportChanged hpage hrest, ?_⟩
  rw [hexport, hquery, showPage_lease, hleased]
  cases hlease : table.snapshotLease with
  | some lease => exact ⟨lease, rfl, rfl⟩
  | none =>
    rw [hlease] at hleased
    exact absurd hleased hsome

end Tables

/-! ### The session -/

section Sessions

variable {answers : Answers} {session : DataTableSession}

theorem lookup_filter (tasks : List (ℕ × String)) (task key : ℕ) :
    (tasks.filter fun entry => entry.1 != task).lookup key =
      if key = task then none else tasks.lookup key := by
  induction tasks with
  | nil => rw [List.filter_nil, List.lookup_nil, ite_self]
  | cons entry tasks ih =>
    obtain ⟨first, id⟩ := entry
    by_cases hfirst : first = task
    · rw [List.filter_cons_of_neg (by simp [hfirst]), ih]
      by_cases hkey : key = task
      · rw [if_pos hkey, if_pos hkey]
      · rw [if_neg hkey, if_neg hkey, List.lookup_cons, hfirst, beq_false_of_ne hkey]
    · rw [List.filter_cons_of_pos (by simp [hfirst]), List.lookup_cons, List.lookup_cons]
      by_cases hkey : key = first
      · rw [if_neg (hkey ▸ hfirst), hkey, beq_self_eq_true]
      · rw [beq_false_of_ne hkey]
        exact ih

/-- Only one table changes, and its task with it at most to none. -/
theorem SessionOk.setTable {id : String} {table table' : Table}
    (hok : SessionOk answers session) (hold : session.tables id = some table)
    (htask : table'.task ≠ 0 → table'.task = table.task)
    (htable : TableOk answers session id table') : SessionOk answers (session.setTable id table') where
  tables other shown h := by
    have hframe : TableOk answers session other shown := by
      replace h : (if other = id then some table' else session.tables other) = some shown := h
      split at h
      · rename_i hid
        obtain rfl := Option.some.inj h
        rw [hid]
        exact htable
      · exact hok.tables other shown h
    exact hframe.frame le_rfl (fun _ _ h => h) fun _ h => ⟨h.submitted, h.outstanding, h.listed⟩
  positive := hok.positive
  earlier := hok.earlier
  nodup := hok.nodup
  exports task entry hentry := by
    obtain ⟨hearlier, hother⟩ := hok.exports task entry hentry
    refine ⟨hearlier, fun other shown h hne => ?_⟩
    replace h : (if other = id then some table' else session.tables other) = some shown := h
    split at h
    · obtain rfl := Option.some.inj h
      rw [htask hne]
      exact hother id table hold (htask hne ▸ hne)
    · exact hother other shown h hne

/-- The storage takes a task that is no table's. -/
theorem SessionOk.allocate (hok : SessionOk answers session) :
    SessionOk answers session.allocate where
  tables id table h := by
    refine (hok.tables id table h).frame (Nat.le_succ _) ?_ fun _ h =>
      ⟨h.submitted, List.mem_cons_of_mem _ h.outstanding, h.listed⟩
    intro task hearlier hgone hmem
    obtain rfl | hmem := List.mem_cons.mp hmem
    · exact absurd hearlier (lt_irrefl _)
    · exact hgone hmem
  positive := Nat.succ_pos _
  earlier task hmem := by
    obtain rfl | hmem := List.mem_cons.mp hmem
    · exact ⟨hok.positive, Nat.lt_succ_self _⟩
    · exact (hok.earlier task hmem).imp_right Nat.lt_succ_of_lt
  nodup := List.nodup_cons.mpr
    ⟨fun hmem => lt_irrefl _ (hok.earlier _ hmem).2, hok.nodup⟩
  exports task id h := (hok.exports task id h).imp_left Nat.lt_succ_of_lt

/-- A query of a table is taken or refused. -/
theorem SessionOk.submitQuery {id : String} {table table' : Table} {snapshot : Option ℤ}
    (hok : SessionOk answers session) (hold : session.tables id = some table)
    (hleased : snapshot ≠ none → snapshot = table'.snapshotLease.map RecordSnapshot.token)
    (submitted : Except String Unit) :
    SessionOk answers (session.submitQuery id table' snapshot submitted) := by
  cases submitted with
  | error error =>
    exact hok.setTable hold (fun h => absurd rfl h) (submitFailed_ok error hleased)
  | ok taken =>
    have hallocated := hok.allocate
    constructor
    · intro other shown h
      replace h : (if other = id then some (table'.submit session.nextTask snapshot)
        else session.tables other) = some shown := h
      split at h
      · rename_i hid
        obtain rfl := Option.some.inj h
        rw [hid]
        exact (submit_ok hok.positive hleased).frame le_rfl (fun _ _ h => h)
          fun _ h => ⟨h.submitted, h.outstanding, h.listed⟩
      · refine (hallocated.tables other shown h).frame le_rfl (fun _ _ h => h) fun hne h' => ?_
        have hkey : shown.task ≠ session.nextTask :=
          ((hok.tables other shown h).task_lt hne).ne
        refine ⟨h'.submitted, h'.outstanding, ?_⟩
        show ((session.nextTask, id) :: session.tasks).lookup shown.task = some other
        rw [List.lookup_cons, beq_false_of_ne hkey]
        exact h'.listed
    · exact hallocated.positive
    · exact hallocated.earlier
    · exact hallocated.nodup
    · intro task entry hentry
      refine ⟨(hallocated.exports task entry hentry).1, fun other shown h hne => ?_⟩
      replace h : (if other = id then some (table'.submit session.nextTask snapshot)
        else session.tables other) = some shown := h
      split at h
      · obtain rfl := Option.some.inj h
        exact (hok.exports task entry hentry).1.ne'
      · exact (hok.exports task entry hentry).2 other shown h hne

/-- An event that is taken submits a query of the changed table, or cancels the one there is. -/
theorem handle_ok {id : String} {action : TableAction} {submitted : Except String Unit}
    {session' : DataTableSession} (h : session.handle id action submitted = .ok session') :
    ∃ table, session.tables id = some table ∧
      ((∃ view action', session' = session.submitQuery id { table with view := view }.showPage
        ({ table with view := view }.nextSnapshot action') submitted) ∨
        session' = session.setTable id table.canceled) := by
  unfold handle at h
  cases hold : session.tables id with
  | none =>
    rw [hold] at h
    cases h
  | some table =>
    rw [hold] at h
    obtain ⟨changed, hchange, h⟩ := bind_eq_ok.mp h
    obtain ⟨view, rfl⟩ := changeView_ok hchange
    refine ⟨table, rfl, ?_⟩
    cases action with
    | refresh => exact .inl ⟨view, .refresh, (Except.ok.inj h).symm⟩
    | view other => exact .inl ⟨view, .view other, (Except.ok.inj h).symm⟩
    | cancel =>
      obtain rfl : table.view = view := congrArg Table.view (Except.ok.inj hchange)
      exact .inr (Except.ok.inj h).symm

/-- An event that is taken keeps the session. -/
theorem SessionOk.handle {id : String} {action : TableAction} {submitted : Except String Unit}
    {session' : DataTableSession} (hok : SessionOk answers session)
    (h : session.handle id action submitted = .ok session') : SessionOk answers session' := by
  obtain ⟨table, hold, ⟨view, action', rfl⟩ | rfl⟩ := handle_ok h
  · refine hok.submitQuery hold ?_ submitted
    rw [showPage_lease]
    exact (hok.tables id table hold).nextSnapshot action' view
  · exact hok.setTable hold (fun h => absurd rfl h) (hok.tables id table hold).canceled

/-- A task the storage has completed and no table waits for. -/
theorem SessionOk.erase (hok : SessionOk answers session) (task : ℕ) (tasks : List (ℕ × String))
    (hidle : ∀ id table, session.tables id = some table → table.task ≠ 0 → table.task ≠ task)
    (htasks : ∀ key ≠ task, tasks.lookup key = session.tasks.lookup key) :
    SessionOk answers
      { session with outstanding := session.outstanding.erase task, tasks := tasks } where
  tables id table h := by
    refine (hok.tables id table h).frame le_rfl (fun _ _ hgone hmem =>
      hgone (List.mem_of_mem_erase hmem)) fun hne hrunning => ?_
    have hother := hidle id table h hne
    refine ⟨hrunning.submitted, ?_, ?_⟩
    · exact (List.mem_erase_of_ne hother).mpr hrunning.outstanding
    · exact (htasks _ hother).trans hrunning.listed
  positive := hok.positive
  earlier other hmem := hok.earlier other (List.mem_of_mem_erase hmem)
  nodup := hok.nodup.erase task
  exports := hok.exports

/-- The completion of the query a table waits for. -/
theorem SessionOk.completed {id : String} {table : Table} (hok : SessionOk answers session)
    (hold : session.tables id = some table) (htask : table.task ≠ 0) :
    SessionOk answers
      ({ session with
        outstanding := session.outstanding.erase table.task
        tasks := session.tasks.filter fun entry => entry.1 != table.task }.setTable id
          (table.completeQuery (answers table.task).completion)) where
  tables other shown h := by
    replace h : (if other = id then some (table.completeQuery (answers table.task).completion)
      else session.tables other) = some shown := h
    split at h
    · rename_i hid
      obtain rfl := Option.some.inj h
      rw [hid]
      exact ((hok.tables id table hold).completed hok.nodup htask _).frame le_rfl
        (fun _ _ h => h) fun _ h => ⟨h.submitted, h.outstanding, h.listed⟩
    · rename_i hid
      have hshown := hok.tables other shown h
      refine hshown.frame le_rfl (fun _ _ hgone hmem =>
        hgone (List.mem_of_mem_erase hmem)) fun hne hrunning => ?_
      -- the task map tells the tables apart
      have hother : shown.task ≠ table.task := by
        intro heq
        have hlisted := hrunning.listed
        rw [heq, ((hok.tables id table hold).running htask).listed] at hlisted
        exact hid (Option.some.inj hlisted).symm
      refine ⟨hrunning.submitted, (List.mem_erase_of_ne hother).mpr hrunning.outstanding, ?_⟩
      show (session.tasks.filter _).lookup _ = _
      rw [lookup_filter, if_neg hother]
      exact hrunning.listed
  positive := hok.positive
  earlier other hmem := hok.earlier other (List.mem_of_mem_erase hmem)
  nodup := hok.nodup.erase _
  exports task entry hentry := by
    refine ⟨(hok.exports task entry hentry).1, fun other shown h hne => ?_⟩
    replace h : (if other = id then some (table.completeQuery (answers table.task).completion)
      else session.tables other) = some shown := h
    split at h
    · obtain rfl := Option.some.inj h
      rw [completeQuery_eq] at hne
      exact absurd rfl hne
    · exact (hok.exports task entry hentry).2 other shown h hne

/-- The export tasks may change, as long as they stay no table's queries. -/
theorem SessionOk.exportTasks (hok : SessionOk answers session) (tasks dialogs : List (ℕ × String))
    (htasks : ∀ task id, tasks.lookup task = some id → task < session.nextTask ∧
      ∀ id table, session.tables id = some table → table.task ≠ 0 → table.task ≠ task) :
    SessionOk answers { session with exportTasks := tasks, exportDialogs := dialogs } where
  tables id table h := (hok.tables id table h).frame le_rfl (fun _ _ h => h)
    fun _ h => ⟨h.submitted, h.outstanding, h.listed⟩
  positive := hok.positive
  earlier := hok.earlier
  nodup := hok.nodup
  exports := htasks

/-- A completion of a task the storage had not completed. -/
theorem SessionOk.complete (hok : SessionOk answers session) {task : ℕ}
    (hmem : task ∈ session.outstanding) :
    SessionOk answers ({ session with outstanding := session.outstanding.erase task }.complete task
      (answers task).completion) := by
  have hpositive : task ≠ 0 := (hok.earlier task hmem).1.ne'
  unfold DataTableSession.complete
  cases hexport : session.exportTasks.lookup task with
  | some id =>
    have hidle := (hok.exports task id hexport).2
    have herased := hok.erase task session.tasks hidle fun _ _ => rfl
    dsimp only
    cases hold : session.tables id with
    | none => exact herased
    | some table =>
      have hset : SessionOk answers ({ session with
          outstanding := session.outstanding.erase task }.setTable id
            (table.completeExport (answers task).completion)) :=
        herased.setTable hold (fun _ => rfl) ((herased.tables id table hold).completeExport _)
      refine hset.exportTasks _ session.exportDialogs fun key entry hentry => ?_
      rw [lookup_filter] at hentry
      split at hentry
      · cases hentry
      · exact hset.exports key entry hentry
  | none =>
    dsimp only
    cases hlisted : session.tasks.lookup task with
    | none =>
      refine hok.erase task session.tasks (fun id table h hne heq => ?_) fun _ _ => rfl
      have hrunning := ((hok.tables id table h).running hne).listed
      rw [heq, hlisted] at hrunning
      cases hrunning
    | some id =>
      have hidle : ∀ table, session.tables id = some table → table.task ≠ task →
          ∀ id table, session.tables id = some table → table.task ≠ 0 → table.task ≠ task := by
        intro table hold hne other shown h hrunning heq
        have hlisted' := ((hok.tables other shown h).running hrunning).listed
        rw [heq, hlisted] at hlisted'
        obtain rfl := Option.some.inj hlisted'
        rw [hold] at h
        obtain rfl := Option.some.inj h
        exact hne heq
      dsimp only
      cases hold : session.tables id with
      | none =>
        refine hok.erase task session.tasks (fun other shown h hrunning heq => ?_) fun _ _ => rfl
        have hlisted' := ((hok.tables other shown h).running hrunning).listed
        rw [heq, hlisted] at hlisted'
        obtain rfl := Option.some.inj hlisted'
        rw [hold] at h
        cases h
      | some table =>
        dsimp only
        by_cases htask : task = table.task
        · rw [if_neg (not_not_intro htask)]
          subst htask
          exact hok.completed hold hpositive
        · rw [if_pos htask]
          exact hok.erase task _ (hidle table hold (Ne.symm htask)) fun key hkey => by
            rw [lookup_filter, if_neg hkey]

theorem SessionOk.page (hok : SessionOk answers session) (id : String) :
    SessionOk answers (session.page id) := by
  unfold DataTableSession.page
  cases hold : session.tables id with
  | none => exact hok
  | some table =>
    exact hok.setTable hold (fun _ => showPage_task table) (hok.tables id table hold).showPage

theorem SessionOk.startExport (hok : SessionOk answers session) (id : String)
    (format : ExportFormat) (pageRevision : ℕ) (dialog : Except String ℕ) :
    SessionOk answers (session.startExport id format pageRevision dialog) := by
  unfold DataTableSession.startExport
  cases hold : session.tables id with
  | none => exact hok
  | some table =>
    have htable := hok.tables id table hold
    dsimp only
    split
    · exact hok
    · split
      · exact hok.setTable hold (fun _ => showPage_task table) htable.showPage
      · cases hprepare : table.prepareExport format with
        | error error =>
          exact hok.setTable hold (fun _ => showPage_task table) (htable.showPage.exportError error)
        | ok prepared =>
          obtain ⟨hprepared, -⟩ := htable.prepareExport hprepare
          obtain ⟨-, -, -, -, htask, -⟩ := prepareExport_ok hprepare
          rw [showPage_task] at htask
          cases dialog with
          | error error =>
            exact hok.setTable hold (fun _ => htask) (hprepared.exportError error)
          | ok dialog =>
            have hset := hok.setTable hold (fun _ => htask) hprepared
            exact hset.exportTasks session.exportTasks _ hset.exports

theorem SessionOk.cancelExport (hok : SessionOk answers session) (id : String) :
    SessionOk answers (session.cancelExport id) := by
  unfold DataTableSession.cancelExport
  cases hold : session.tables id with
  | none => exact hok
  | some table =>
    dsimp only
    split
    · exact hok.setTable hold (fun _ => rfl)
        ((hok.tables id table hold).exportChanged ⟨rfl, rfl, rfl, rfl⟩ ⟨rfl, rfl, rfl⟩)
    · exact hok

theorem SessionOk.fileDialog (hok : SessionOk answers session) (dialog : ℕ)
    (outcome : DialogOutcome) : SessionOk answers (session.fileDialog dialog outcome) := by
  unfold DataTableSession.fileDialog
  cases session.exportDialogs.lookup dialog with
  | none => exact hok
  | some id =>
    dsimp only
    cases hold : session.tables id with
    | none => exact hok
    | some table =>
      have hdialogs := hok.exportTasks session.exportTasks
        (session.exportDialogs.filter fun entry => entry.1 != dialog) hok.exports
      have hended : ∀ error, SessionOk answers ({ session with
          exportDialogs := session.exportDialogs.filter fun entry => entry.1 != dialog }.setTable id
            (table.exportError error)) := fun error =>
        hdialogs.setTable hold (fun _ => rfl) ((hdialogs.tables id table hold).exportError error)
      cases outcome with
      | notPermitted => exact hended _
      | closed error => exact hended _
      | invalidSelection => exact hended _
      | selected submitted =>
        cases submitted with
        | error error => exact hended _
        | ok done =>
          have hended := (hdialogs.allocate.tables id table hold).dialogEnded session.nextTask
            (.selected (.ok ()))
          have hset := hdialogs.allocate.setTable hold (fun h => (rfl :
            (table.dialogEnded session.nextTask (.selected (.ok ()))).task = table.task)) hended
          refine hset.exportTasks ((session.nextTask, id) :: session.exportTasks) _ ?_
          intro task other hentry
          rw [List.lookup_cons] at hentry
          by_cases htask : task = session.nextTask
          · -- the storage has given no query this task
            refine ⟨htask ▸ Nat.lt_succ_self _, fun other shown h hne heq => ?_⟩
            replace h : (if other = id then some (table.dialogEnded session.nextTask
              (.selected (.ok ()))) else session.tables other) = some shown := h
            split at h
            · obtain rfl := Option.some.inj h
              exact lt_irrefl _ (htask ▸ heq ▸ (hok.tables id table hold).task_lt hne)
            · exact lt_irrefl _ (htask ▸ heq ▸ (hok.tables other shown h).task_lt hne)
          · rw [beq_false_of_ne htask] at hentry
            exact hset.exports task other hentry

/-! ### Runs -/

theorem SessionOk.step (hok : SessionOk answers session) (event : TableStep) :
    SessionOk answers (session.step answers event) := by
  cases event with
  | page id => exact hok.page id
  | event id action submitted =>
    unfold DataTableSession.step
    dsimp only
    cases hhandle : session.handle id action submitted with
    | ok session' => exact hok.handle hhandle
    | error error => exact hok
  | startExport id format pageRevision dialog => exact hok.startExport id format pageRevision dialog
  | cancelExport id => exact hok.cancelExport id
  | fileDialog dialog outcome => exact hok.fileDialog dialog outcome
  | otherTask => exact hok.allocate
  | complete task =>
    unfold DataTableSession.step
    dsimp only
    split
    · rename_i hmem
      exact hok.complete (List.contains_iff_mem.mp hmem)
    · exact hok

theorem opened_ok (controls : String → Option DataTableConfig) :
    SessionOk answers (opened controls) where
  tables id table h := by
    obtain ⟨config, -, rfl⟩ := Option.map_eq_some_iff.mp h
    exact ⟨fun _ h => (by cases h), fun _ => rfl, fun h => absurd rfl h,
      fun _ _ h => (by cases h), fun h => absurd rfl h⟩
  positive := Nat.one_pos
  earlier _ h := by cases h
  nodup := List.nodup_nil
  exports _ _ h := by cases h

theorem SessionOk.run (hok : SessionOk answers session) (steps : List TableStep) :
    SessionOk answers (session.run answers steps) := by
  induction steps generalizing session with
  | nil => exact hok
  | cons event steps ih => exact ih (hok.step event)

end Sessions

/-! ### Replaced pages -/

section Replacing

variable {answers : Answers} {session : DataTableSession}

/-- The table still shows its page, or one that is newer than the table was. -/
def Replaced (table table' : Table) : Prop :=
  table'.page = table.page ∨ ∃ page, table'.page = some page ∧ table.revision < page.revision

theorem Replaced.refl (table : Table) : Replaced table table := .inl rfl

theorem replaced_replacePage {table older : Table} (next : TablePage)
    (h : older.revision ≤ table.revision) : Replaced older (table.replacePage next) :=
  .inr ⟨_, rfl, Nat.lt_succ_of_le h⟩

theorem replaced_showPage (table : Table) : Replaced table table.showPage := by
  unfold Table.showPage
  split
  · exact .inr ⟨_, rfl, Nat.lt_succ_self _⟩
  · exact .inl rfl

theorem showPage_revision (table : Table) : table.revision ≤ table.showPage.revision := by
  unfold Table.showPage
  split
  · exact Nat.le_succ _
  · exact le_rfl

theorem replaced_completeQuery (table : Table) (outcome : StoreOutcome) :
    Replaced table (table.completeQuery outcome.completion) := by
  rw [completeQuery_eq]
  exact replaced_replacePage _ le_rfl

/-- Every table is still there, with its page or a newer one. -/
def Moved (session session' : DataTableSession) : Prop :=
  ∀ id table, session.tables id = some table →
    ∃ table', session'.tables id = some table' ∧ Replaced table table'

theorem Moved.refl (session : DataTableSession) : Moved session session :=
  fun _ table h => ⟨table, h, .refl table⟩

theorem moved_setTable {id : String} {table table' : Table} (hold : session.tables id = some table)
    (h : Replaced table table') : Moved session (session.setTable id table') := by
  intro other shown hshown
  show ∃ shown', (if other = id then some table' else session.tables other) = some shown' ∧ _
  split
  · rename_i hid
    rw [hid, hold] at hshown
    obtain rfl := Option.some.inj hshown
    exact ⟨table', rfl, h⟩
  · exact ⟨shown, hshown, .refl shown⟩

theorem moved_handle {id : String} {action : TableAction} {submitted : Except String Unit}
    {session' : DataTableSession} (h : session.handle id action submitted = .ok session') :
    Moved session session' := by
  obtain ⟨table, hold, ⟨view, action', rfl⟩ | rfl⟩ := handle_ok h
  · have hshown : table.revision ≤ { table with view := view }.showPage.revision :=
      showPage_revision { table with view := view }
    cases submitted with
    | ok taken => exact moved_setTable hold (replaced_replacePage _ hshown)
    | error error => exact moved_setTable hold (replaced_replacePage _ hshown)
  · exact moved_setTable hold (replaced_replacePage _ (showPage_revision table))

theorem moved_complete (task : ℕ) (outcome : StoreOutcome) :
    Moved session (session.complete task outcome.completion) := by
  unfold complete
  cases session.exportTasks.lookup task with
  | some id =>
    dsimp only
    cases hold : session.tables id with
    | none => exact .refl session
    | some table => exact moved_setTable hold (.inl rfl)
  | none =>
    dsimp only
    cases session.tasks.lookup task with
    | none => exact .refl session
    | some id =>
      dsimp only
      cases hold : session.tables id with
      | none => exact .refl session
      | some table =>
        dsimp only
        split
        · exact .refl session
        · exact moved_setTable hold (replaced_completeQuery table outcome)

theorem moved_startExport (id : String) (format : ExportFormat) (pageRevision : ℕ)
    (dialog : Except String ℕ) :
    Moved session (session.startExport id format pageRevision dialog) := by
  unfold startExport
  cases hold : session.tables id with
  | none => exact .refl session
  | some table =>
    have hshown := replaced_showPage table
    dsimp only
    split
    · exact .refl session
    · split
      · exact moved_setTable hold hshown
      · cases hprepare : table.prepareExport format with
        | error error => exact moved_setTable hold hshown
        | ok prepared =>
          obtain ⟨-, -, -, ⟨hpage, -⟩, -⟩ := prepareExport_ok hprepare
          have hprepared : Replaced table prepared := by
            unfold Replaced
            rwa [hpage]
          cases dialog with
          | error error => exact moved_setTable hold hprepared
          | ok dialog => exact moved_setTable hold hprepared

theorem moved_fileDialog (dialog : ℕ) (outcome : DialogOutcome) :
    Moved session (session.fileDialog dialog outcome) := by
  unfold fileDialog
  cases session.exportDialogs.lookup dialog with
  | none => exact .refl session
  | some id =>
    dsimp only
    cases hold : session.tables id with
    | none => exact .refl session
    | some table =>
      cases outcome with
      | notPermitted => exact moved_setTable hold (.inl rfl)
      | closed error => exact moved_setTable hold (.inl rfl)
      | invalidSelection => exact moved_setTable hold (.inl rfl)
      | selected submitted =>
        cases submitted with
        | ok done => exact moved_setTable hold (.inl rfl)
        | error error => exact moved_setTable hold (.inl rfl)

/-- No step shows an older page again. -/
theorem moved_step (event : TableStep) : Moved session (session.step answers event) := by
  cases event with
  | page id =>
    show Moved session (session.page id)
    unfold DataTableSession.page
    cases hold : session.tables id with
    | none => exact .refl session
    | some table => exact moved_setTable hold (replaced_showPage table)
  | event id action submitted =>
    unfold step
    dsimp only
    cases hhandle : session.handle id action submitted with
    | ok session' => exact moved_handle hhandle
    | error error => exact .refl session
  | startExport id format pageRevision dialog => exact moved_startExport id format pageRevision dialog
  | cancelExport id =>
    show Moved session (session.cancelExport id)
    unfold cancelExport
    cases hold : session.tables id with
    | none => exact .refl session
    | some table =>
      dsimp only
      split
      · exact moved_setTable hold (.inl rfl)
      · exact .refl session
  | fileDialog dialog outcome => exact moved_fileDialog dialog outcome
  | otherTask => exact .refl session
  | complete task =>
    unfold step
    dsimp only
    split
    · exact @moved_complete { session with outstanding := session.outstanding.erase task } task
        (answers task)
    · exact .refl session

end Replacing

/-! ### History tables -/

/-- A displayed page belongs to the last query: it has that query's rows or none, its offset
and its limit, and it loads while the storage has the query. -/
structure ShowsLast (answers : Answers) (session : DataTableSession) (table : Table)
    (page : TablePage) : Prop where
  rows : page.rows ≠ [] → ∃ task query, table.submitted = some (task, query) ∧
    page.rows = rowsOf (answers task)
  bounds : ∀ task query, table.submitted = some (task, query) →
    page.offset = query.query.offset ∧ page.limit = query.query.limit
  loading : page.loading = true ↔
    ∃ task query, table.submitted = some (task, query) ∧ task ∈ session.outstanding

/-- What a session promises of a table. -/
structure TableConsistent (answers : Answers) (session : DataTableSession) (id : String)
    (table : Table) : Prop where
  shows : ∀ page, table.page = some page → ShowsLast answers session table page
  /-- the frozen query of an export reads the snapshot its lease protects -/
  frozen : ∀ format prepared, table.prepareExport format = .ok prepared →
    ∃ lease, prepared.exportLease = some lease ∧
      prepared.exportQuery.snapshot = some lease.token
  /-- a page is replaced by one of a larger revision only -/
  newer : ∀ event, ∃ table', (session.step answers event).tables id = some table' ∧
    (table'.page = table.page ∨ ∃ page', table'.page = some page' ∧
      ∀ page, table.page = some page → page.revision < page'.revision)
  invalid : ∀ view submitted error, checkView table.config view = .error error →
    session.step answers (.event id (.view view) submitted) = session

/-- Every table of the session keeps what it promises. -/
def HistoryConsistent (answers : Answers) (session : DataTableSession) : Prop :=
  ∀ id table, session.tables id = some table → TableConsistent answers session id table

theorem TableOk.shows {answers : Answers} {session : DataTableSession} {id : String}
    {table : Table} {page : TablePage} (hok : TableOk answers session id table)
    (hpositive : ∀ task ∈ session.outstanding, 0 < task) (hpage : table.page = some page) :
    ShowsLast answers session table page := by
  have hpageOk := hok.page page hpage
  refine ⟨hpageOk.rows, fun task query h => ?_, hpageOk.loading.trans ⟨fun htask => ?_, ?_⟩⟩
  · have hsubmitted := hok.submitted task query h
    rw [hsubmitted.offset, hsubmitted.limit]
    exact ⟨hpageOk.offset, hpageOk.limit⟩
  · have hrunning := hok.running htask
    obtain ⟨query, hquery⟩ := hrunning.submitted
    exact ⟨table.task, query, hquery, hrunning.outstanding⟩
  · rintro ⟨task, query, h, hmem⟩ htask
    obtain hrunning | ⟨-, hgone⟩ := (hok.submitted task query h).running
    · exact (hpositive task hmem).ne' (hrunning ▸ htask)
    · exact hgone hmem

/-- A view that is refused changes nothing. -/
theorem step_invalidView {answers : Answers} {session : DataTableSession} {id : String}
    {table : Table} {view : TableView} {error : String} (hold : session.tables id = some table)
    (h : checkView table.config view = .error error) (submitted : Except String Unit) :
    session.step answers (.event id (.view view) submitted) = session := by
  have hhandle : session.handle id (.view view) submitted = .error error := by
    unfold handle
    rw [hold]
    unfold changeView
    dsimp only
    rw [h]
    rfl
  unfold step
  dsimp only
  rw [hhandle]

/-- **A history table shows its last query, whatever order the events and the completions come
in.** -/
theorem history_consistent (controls : String → Option DataTableConfig) (answers : Answers)
    (steps : List TableStep) :
    HistoryConsistent answers ((opened controls).run answers steps) := by
  intro id table htable
  have hsession : SessionOk answers _ := (opened_ok controls).run steps
  have hok := hsession.tables id table htable
  have hpositive : ∀ task ∈ ((opened controls).run answers steps).outstanding, 0 < task :=
    fun task hmem => (hsession.earlier task hmem).1
  refine ⟨fun page hpage => hok.shows hpositive hpage, fun format prepared h => (hok.prepareExport h).2,
    fun event => ?_, fun view submitted error h => ?_⟩
  · obtain ⟨table', htable', hreplaced⟩ := moved_step event id table htable
    refine ⟨table', htable', hreplaced.imp_right ?_⟩
    rintro ⟨page', hpage', hrevision⟩
    exact ⟨page', hpage', fun page hpage => (hok.page page hpage).revision ▸ hrevision⟩
  · exact step_invalidView htable h submitted

end ProtoScope.Scripting
