/-
The data tables of a script that show history.

A table has a view, which its events change, and a page, which is what is displayed.  An
event submits a query for the view and shows a page that is loading; the completion of that
query replaces the page.  Completions of queries that were canceled or superseded still
arrive and are told by their task.  An export freezes the query behind the displayed page
and holds a lease on its snapshot.

Live tables and the selection of rows are left out.  Each table also keeps, for the proofs,
the last query it has submitted, until that is canceled or the next one is refused.
-/
import ProtoScope.Data.ValueCodec
import ProtoScope.Storage.RecordQuery

namespace ProtoScope.Scripting

open ProtoScope.Data
open ProtoScope.Storage (Query RecordSnapshot)

structure TableView where
  device : Option Text := none
  fromUs : Option Int64 := none
  toUs : Option Int64 := none
  conditions : List FieldCondition := []
  sort : Option FieldSort := none
  offset : ℕ := 0
  limit : ℕ := 200

structure TableRow where
  id : ℤ
  record : Record
  schema : Schema

structure TablePage where
  rows : List TableRow := []
  offset : ℕ := 0
  limit : ℕ := 200
  more : Bool := false
  loading : Bool := false
  snapshot : Option ℤ := none
  revision : ℕ := 0
  error : String := ""

structure DataTableConfig where
  dataset : Text
  device : Option Text := none
  /-- the fields of the declared columns -/
  columns : List Text
  pageSize : ℕ := 200

inductive ExportFormat where
  | csv
  | psrec
deriving DecidableEq, Repr

structure DataTableExportState where
  choosingPath : Bool := false
  running : Bool := false
  message : String := ""
deriving DecidableEq, Repr

/-- A query with the token of the snapshot it is to read. -/
structure TableQuery where
  query : Query := {}
  snapshot : Option ℤ := none

structure Table where
  config : DataTableConfig
  view : TableView
  page : Option TablePage := none
  snapshotLease : Option RecordSnapshot := none
  task : ℕ := 0
  revision : ℕ := 0
  dirty : Bool := true
  exportState : DataTableExportState := {}
  exportFormat : ExportFormat := .csv
  exportQuery : TableQuery := {}
  exportLease : Option RecordSnapshot := none
  exportTask : ℕ := 0
  submitted : Option (ℕ × TableQuery) := none

/-- What the storage reports about a task. -/
structure StoreCompletion where
  ok : Bool
  error : String := ""
  processed : ℕ := 0
  snapshot : Option ℤ := none
  snapshotLease : Option RecordSnapshot := none
  records : List Record := []
  rowIds : List ℤ := []
  schemas : List (ℕ × Schema) := []
  more : Bool := false

/-- How a task of the storage ends.  The page of a query is one the query service has made. -/
inductive StoreOutcome where
  | queried (lease : RecordSnapshot) (page : Storage.Completion)
      (answer : ∃ sqlite memory budget directory query,
        Storage.RecordQueryService.query sqlite memory budget directory lease query = .ok page)
  | exported (lease : Option RecordSnapshot) (processed : ℕ)
  | failed (error : String)

/-- What `readLoop` reports. -/
def StoreOutcome.completion : StoreOutcome → StoreCompletion
  | .queried lease page _ =>
    { ok := true
      snapshot := some page.snapshot
      snapshotLease := some lease
      records := page.records
      rowIds := page.rowIds
      schemas := page.schemas
      more := page.more }
  | .exported lease processed =>
    { ok := true
      processed := processed
      snapshot := lease.map RecordSnapshot.token
      snapshotLease := lease }
  | .failed error => { ok := false, error := error }

/-! ### Views -/

/-- `'\0'` -/
def nul : UInt8 := 0

def validateCondition (condition : FieldCondition) : Except String Unit := do
  invalid (condition.field = [] ∨ 4096 < condition.field.length ∨ nul ∈ condition.field ∨
    5 < condition.value.index) "invalid field condition"
  let unary := condition.op = .isNull ∨ condition.op = .notNull
  invalid (¬ (unary ↔ condition.value.index = 0))
    "null tests require is_null/not_null without a value"
  invalid (condition.op = .contains ∧ condition.value.index ≠ 4) "contains requires a string"

/-- The loop of `validateConditions`, with the bytes counted so far. -/
def validateConditionsFrom : ℕ → List FieldCondition → Except String Unit
  | _, [] => .ok ()
  | bytes, condition :: conditions => do
    validateCondition condition
    let encoded ← encodeValue condition.value { maxBytes := 65536, maxDepth := 1 }
    let bytes := bytes + condition.field.length + encoded.length
    invalid (65536 < bytes) "query conditions exceed 64 KiB"
    validateConditionsFrom bytes conditions

def validateConditions (conditions : List FieldCondition) : Except String Unit := do
  invalid (16 < conditions.length) "query exceeds 16 field conditions"
  validateConditionsFrom 0 conditions

/-- A range that ends before it begins. -/
def reversedRange (fromUs toUs : Option Int64) : Bool :=
  match fromUs, toUs with
  | some first, some last => decide (last < first)
  | _, _ => false

def badSort (sort : Option FieldSort) : Bool :=
  match sort with
  | some sort => sort.field == [] || decide (4096 < sort.field.length) || sort.field.contains nul
  | none => false

def validateTableView (view : TableView) : Except String Unit := do
  validateConditions view.conditions
  invalid (view.limit < 1 ∨ 1000 < view.limit ∨ Data.int64Max < view.offset ∨
    reversedRange view.fromUs view.toUs = true ∨ 4096 < (view.device.getD []).length ∨
    badSort view.sort = true) "invalid table view"

def DataTableConfig.declared (config : DataTableConfig) (field : Text) : Bool :=
  config.columns.any fun column => column == field

/-- A view may name the declared columns only. -/
def checkView (config : DataTableConfig) (view : TableView) : Except String Unit := do
  validateTableView view
  invalid (view.conditions.any fun condition => !config.declared condition.field)
    "unknown table filter column"
  invalid (view.sort.any fun sort => !config.declared sort.field) "unknown sort column"

namespace Table

/-! ### Pages -/

/-- `page`: the page that is displayed, made if there is none. -/
def showPage (table : Table) : Table :=
  if table.page.isNone || table.dirty then
    { table with
      revision := table.revision + 1
      page := some {
        limit := table.view.limit
        offset := table.view.offset
        revision := table.revision + 1 }
      dirty := false }
  else table

def currentPage (table : Table) : TablePage := table.showPage.page.getD {}

/-- The next page replaces the displayed one. -/
def replacePage (table : Table) (next : TablePage) : Table :=
  { table with
    revision := table.revision + 1
    page := some {
      next with
      offset := table.view.offset
      limit := table.view.limit
      revision := table.revision + 1 }
    dirty := false }

/-- The query for the view, on a snapshot. -/
def viewQuery (table : Table) (snapshot : Option ℤ) : TableQuery where
  query := {
    dataset := table.config.dataset
    device := table.view.device
    fromUs := table.view.fromUs
    toUs := table.view.toUs
    conditions := table.view.conditions
    sort := table.view.sort
    limit := table.view.limit
    offset := table.view.offset }
  snapshot := snapshot

inductive TableAction where
  | refresh
  | view (view : TableView)
  | cancel

/-- The table once an event has changed its view. -/
def changeView (table : Table) : TableAction → Except String Table
  | .refresh => .ok { table with view := { table.view with offset := 0 } }
  | .view view => do
    checkView table.config view
    return { table with view := { view with device := table.config.device.or view.device } }
  | .cancel => .ok table

/-- The snapshot a new query is to read: a refresh asks for a new one. -/
def nextSnapshot (table : Table) : TableAction → Option ℤ
  | .refresh => none
  | _ => table.currentPage.snapshot

/-- The storage has taken the query under a task. -/
def submit (table : Table) (task : ℕ) (snapshot : Option ℤ) : Table :=
  { table with
    task := task
    submitted := some (task, table.viewQuery snapshot) }.replacePage
      { snapshot := snapshot, loading := true }

/-- The storage has refused the query. -/
def submitFailed (table : Table) (snapshot : Option ℤ) (error : String) : Table :=
  { table with task := 0, submitted := none }.replacePage { snapshot := snapshot, error := error }

def canceled (table : Table) : Table :=
  { table.showPage with task := 0, submitted := none }.replacePage
    { snapshot := table.currentPage.snapshot, error := "query canceled" }

/-- The rows of a completion, each with its id and its schema: `rowIds.at`, `schemas.at`. -/
def completionRows (schemas : List (ℕ × Schema)) : List Record → List ℤ → Option (List TableRow)
  | [], _ => some []
  | _ :: _, [] => none
  | record :: records, id :: rowIds => do
    let schema ← schemas.lookup record.schemaVersion.toNat
    let rows ← completionRows schemas records rowIds
    return { id := id, record := record, schema := schema } :: rows

/-- The query of the table is completed.  Where a row lacks its id or its schema the page stays
as it is. -/
def completeQuery (table : Table) (result : StoreCompletion) : Table :=
  let table := { table with task := 0, snapshotLease := result.snapshotLease }
  match if result.ok then completionRows result.schemas result.records result.rowIds else some [] with
  | some rows =>
    table.replacePage {
      rows := rows
      snapshot := result.snapshot
      more := result.more
      error := result.error }
  | none => table

/-! ### Export -/

def exportActive (table : Table) : Bool :=
  table.exportState.choosingPath || table.exportState.running

def exportError (table : Table) (error : String) : Table :=
  { table with exportLease := none, exportState := { message := error } }

/-- Whether what is displayed can be exported. -/
def exportReady (table : Table) : Bool :=
  !table.currentPage.loading && table.currentPage.error == "" && table.currentPage.snapshot.isSome

/-- Freezes the query behind the displayed page, or says why not. -/
def prepareExport (table : Table) (format : ExportFormat) : Except String Table :=
  if table.exportActive then .error "table export already active"
  else if !table.exportReady then .error "table snapshot is not ready"
  else
    .ok {
      table.showPage with
      exportQuery := { (table.viewQuery table.currentPage.snapshot) with
        query := { (table.viewQuery none).query with limit := 200, offset := 0 } }
      exportLease := table.showPage.snapshotLease
      exportFormat := format
      exportState := { choosingPath := true, message := "Choose export file" } }

/-- How the file dialog of an export ends. -/
inductive DialogOutcome where
  | notPermitted
  | closed (error : String)
  | invalidSelection
  | selected (submitted : Except String Unit)

/-- What becomes of an export when its dialog ends; `task` is the storage's next one. -/
def dialogEnded (table : Table) (task : ℕ) : DialogOutcome → Table
  | .notPermitted => table.exportError "table export no longer permitted"
  | .closed error => table.exportError (if error = "" then "Export canceled" else error)
  | .invalidSelection => table.exportError "invalid table export file selection"
  | .selected (.error error) => table.exportError error
  | .selected (.ok ()) =>
    { table with
      exportTask := task
      exportState := { running := true, message := "Exporting..." } }

def completeExport (table : Table) (result : StoreCompletion) : Table :=
  { table with
    exportTask := 0
    exportLease := none
    exportState :=
      { message :=
          if result.ok then s!"Exported {result.processed} rows" else result.error } }

end Table

/-! ### The session -/

/-- The tables of a script by their controls, and the tasks they have given the storage.  The
storage keeps what it has not completed yet. -/
structure DataTableSession where
  tables : String → Option Table
  tasks : List (ℕ × String) := []
  exportTasks : List (ℕ × String) := []
  exportDialogs : List (ℕ × String) := []
  nextTask : ℕ := 1
  outstanding : List ℕ := []

namespace DataTableSession

open Table

def setTable (session : DataTableSession) (id : String) (table : Table) : DataTableSession :=
  { session with tables := fun other => if other = id then some table else session.tables other }

/-- The storage takes a task. -/
def allocate (session : DataTableSession) : DataTableSession :=
  { session with
    nextTask := session.nextTask + 1
    outstanding := session.nextTask :: session.outstanding }

/-- The page of a table is asked for. -/
def page (session : DataTableSession) (id : String) : DataTableSession :=
  match session.tables id with
  | some table => session.setTable id table.showPage
  | none => session

/-- The query for a changed view is submitted. -/
def submitQuery (session : DataTableSession) (id : String) (table : Table)
    (snapshot : Option ℤ) : Except String Unit → DataTableSession
  | .ok () =>
    { session.allocate.setTable id (table.submit session.nextTask snapshot) with
      tasks := (session.nextTask, id) :: session.tasks }
  | .error error => session.setTable id (table.submitFailed snapshot error)

/-- An event on a table; `submitted` is what the storage says to the query.  That the running
query is asked to stop changes how it ends at most. -/
def handle (session : DataTableSession) (id : String) (action : TableAction)
    (submitted : Except String Unit) : Except String DataTableSession :=
  match session.tables id with
  | none => .error "map::at"
  | some table => do
    let table ← table.changeView action
    match action with
    | .cancel => return session.setTable id table.canceled
    | _ =>
      return session.submitQuery id table.showPage (table.nextSnapshot action) submitted

/-- A completion arrives.  That of an export ends the export; that of a query counts if it is
the table's last one. -/
def complete (session : DataTableSession) (task : ℕ) (result : StoreCompletion) :
    DataTableSession :=
  match session.exportTasks.lookup task with
  | some id =>
    match session.tables id with
    | some table =>
      { session.setTable id (table.completeExport result) with
        exportTasks := session.exportTasks.filter fun entry => entry.1 != task }
    | none => session
  | none =>
    match session.tasks.lookup task with
    | some id =>
      match session.tables id with
      | some table =>
        let session :=
          { session with tasks := session.tasks.filter fun entry => entry.1 != task }
        if task ≠ table.task then session else session.setTable id (table.completeQuery result)
      | none => session
    | none => session

/-- An export event of the user interface; the dialog may fail to open. -/
def startExport (session : DataTableSession) (id : String) (format : ExportFormat)
    (pageRevision : ℕ) (dialog : Except String ℕ) : DataTableSession :=
  match session.tables id with
  | none => session
  | some table =>
    if table.exportActive then session
    else if table.currentPage.revision ≠ pageRevision then session.setTable id table.showPage
    else
      match table.prepareExport format with
      | .error error => session.setTable id (table.showPage.exportError error)
      | .ok prepared =>
        match dialog with
        | .error error => session.setTable id (prepared.exportError error)
        | .ok dialog =>
          { session.setTable id prepared with
            exportDialogs := (dialog, id) :: session.exportDialogs }

def cancelExport (session : DataTableSession) (id : String) : DataTableSession :=
  match session.tables id with
  | some table =>
    if table.exportTask ≠ 0 then
      session.setTable id { table with
        exportState := { table.exportState with message := "Canceling export..." } }
    else session
  | none => session

/-- A file dialog ends. -/
def fileDialog (session : DataTableSession) (dialog : ℕ) (outcome : DialogOutcome) :
    DataTableSession :=
  match session.exportDialogs.lookup dialog with
  | none => session
  | some id =>
    match session.tables id with
    | none => session
    | some table =>
      let session :=
        { session with
          exportDialogs := session.exportDialogs.filter fun entry => entry.1 != dialog }
      match outcome with
      | .selected (.ok ()) =>
        { session.allocate.setTable id (table.dialogEnded session.nextTask outcome) with
          exportTasks := (session.nextTask, id) :: session.exportTasks }
      | _ => session.setTable id (table.dialogEnded session.nextTask outcome)

/-! ### Runs -/

inductive TableStep where
  | page (id : String)
  | event (id : String) (action : TableAction) (submitted : Except String Unit)
  | startExport (id : String) (format : ExportFormat) (pageRevision : ℕ) (dialog : Except String ℕ)
  | cancelExport (id : String)
  | fileDialog (dialog : ℕ) (outcome : DialogOutcome)
  /-- a task the script itself gives the storage -/
  | otherTask
  | complete (task : ℕ)

/-- What the storage makes of each task. -/
abbrev Answers : Type := ℕ → StoreOutcome

/-- An event that is refused leaves the session as it is; a task is completed once. -/
def step (answers : Answers) (session : DataTableSession) : TableStep → DataTableSession
  | .page id => session.page id
  | .event id action submitted =>
    match session.handle id action submitted with
    | .ok session => session
    | .error _ => session
  | .startExport id format pageRevision dialog =>
    session.startExport id format pageRevision dialog
  | .cancelExport id => session.cancelExport id
  | .fileDialog dialog outcome => session.fileDialog dialog outcome
  | .otherTask => session.allocate
  | .complete task =>
    if session.outstanding.contains task then
      { session with outstanding := session.outstanding.erase task }.complete task
        (answers task).completion
    else session

def run (answers : Answers) (session : DataTableSession) (steps : List TableStep) :
    DataTableSession :=
  steps.foldl (step answers) session

/-- The tables of the controls, none of which shows anything yet. -/
def opened (controls : String → Option DataTableConfig) : DataTableSession where
  tables id := (controls id).map fun config =>
    { config := config, view := { device := config.device, limit := config.pageSize } }

end DataTableSession

end ProtoScope.Scripting
