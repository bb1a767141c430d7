/-
Queries over the volumes of a snapshot.

Each volume answers with a cursor over its matching rows, in the order of the query.  The
cursors wait in a priority queue by their current rows, so the rows of all volumes come out
in one order, and a page is what is left after the offset, up to the limit.

A snapshot is what a query reads it as: the sources with their cut-offs and the schemas.
The handing out of snapshots, the pins on their volumes and canceling are left out.  The
conditions reach the statements as they are; their encoding and its limits are left out.
-/
import ProtoScope.Data.Query
import ProtoScope.Library.WeakOrder
import ProtoScope.Storage.RecordDirectory

namespace ProtoScope.Storage

open ProtoScope.Data ProtoScope.Library

structure RecordSource where
  /-- the volume's directory -/
  path : String
  cutoff : ℤ := 0
  idBase : ℤ := 0
  schemaIds : List (ℕ × ℕ)

structure RecordSnapshot where
  token : ℤ := 0
  sources : List RecordSource
  schemas : List (ℕ × Schema)

structure Query where
  dataset : Text := []
  device : Option Text := none
  fromUs : Option Int64 := none
  toUs : Option Int64 := none
  offset : ℕ := 0
  limit : ℕ := 200
  conditions : List FieldCondition := []
  sort : Option FieldSort := none

/-- Sizes in memory, which the compiler and its library decide. -/
structure MemorySizes where
  cursor : ℕ
  capacity : List UInt8 → ℕ
  schemaBytes : Schema → ℕ
  recordMemoryBytes : Record → ℕ

/-! ### Rows and their order -/

/-- A value a row can be sorted by: the validation of records refuses nested values and
floating-point numbers that are not finite. -/
def sortable : Value → Bool
  | .double number => number.isFinite
  | .array _ => false
  | .object _ => false
  | _ => true

/-- The sort columns of a row; `none` where the schema lacks the field. -/
structure SortKey where
  field : Option Value
  isSortable : ∀ value ∈ field, sortable value = true

namespace SortKey

def missing : SortKey := ⟨none, fun _ h => nomatch h⟩

/-- `sortType` -/
def type (key : SortKey) : ℤ :=
  match key.field with
  | none => -1
  | some value => value.index

/-- `sortValue` -/
def value (key : SortKey) : Value := key.field.getD .null

end SortKey

/-- A row of a statement's result; `record` is its payload. -/
structure Row where
  id : ℤ
  receivedUs : Int64
  localSchema : ℕ
  sortKey : SortKey
  record : Record

/-- The order of two values of one type. -/
def scalarLess : Value → Value → Bool
  | .int64 a, .int64 b => a < b
  | .double a, .double b => a < b
  | .bool a, .bool b => a < b
  | .string a, .string b => a < b
  | .bytes a, .bytes b => a < b
  | _, _ => false

/-- The order of the two sort columns.  A missing field is `NULL`, which comes first. -/
def SortKey.Less : SortKey → SortKey → Prop :=
  ThenBy (fun a b => a.type < b.type) fun a b => scalarLess a.value b.value = true

instance : DecidableRel SortKey.Less :=
  inferInstanceAs (DecidableRel (ThenBy (fun a b : SortKey => a.type < b.type)
    fun a b => scalarLess a.value b.value = true))

def SortKey.Before (sort : Option FieldSort) (a b : SortKey) : Prop :=
  match sort with
  | none => False
  | some sort => if sort.descending then b.Less a else a.Less b

instance (sort : Option FieldSort) : DecidableRel (SortKey.Before sort) := fun a b =>
  match sort with
  | none => .isFalse id
  | some sort => inferInstanceAs (Decidable (if sort.descending then b.Less a else a.Less b))

/-- `ORDER BY` -/
def Row.Before (sort : Option FieldSort) : Row → Row → Prop :=
  ThenBy (fun a b => SortKey.Before sort a.sortKey b.sortKey)
    (ThenBy (fun a b => a.receivedUs < b.receivedUs) fun a b => a.id < b.id)

instance (sort : Option FieldSort) : DecidableRel (Row.Before sort) :=
  inferInstanceAs (DecidableRel (ThenBy (fun a b : Row => SortKey.Before sort a.sortKey b.sortKey)
    (ThenBy (fun a b => a.receivedUs < b.receivedUs) fun a b => a.id < b.id)))

/-- What sorts the result of a statement. -/
structure Sqlite where
  orderBy : Option FieldSort → List Row → List Row
  perm : ∀ sort rows, (orderBy sort rows).Perm rows
  sorted : ∀ sort rows, (orderBy sort rows).Pairwise fun a b => ¬ Row.Before sort b a

/-! ### Cursors -/

structure Cursor where
  source : RecordSource
  current : Row
  rest : List Row

namespace Cursor

/-- The conditions on the columns of a record. -/
def selects (source : RecordSource) (query : Query) (row : RecordRow) : Bool :=
  row.id ≤ source.cutoff &&
    (query.dataset.isEmpty || row.record.dataset == query.dataset) &&
    query.device.all (fun device => row.record.device == device) &&
    query.fromUs.all (fun fromUs => fromUs ≤ row.record.receivedAtUs) &&
    query.toUs.all (fun toUs => row.record.receivedAtUs ≤ toUs)

/-- `ps_field_type` and `ps_field` -/
def sortKey (schema : Schema) (record : Record) (field : Text) : Except String SortKey := do
  validateRecord schema record
  match record.fieldValue schema field with
  | none => return .missing
  | some value =>
    if h : sortable value = true then
      return ⟨some value, fun _ hmem => Option.some.inj hmem ▸ h⟩
    else .error "record fields must be scalars"

/-- The row of the result for a record, if it matches. -/
def selectRow (schemas : List (ℕ × Schema)) (source : RecordSource) (query : Query)
    (row : RecordRow) : Except String (Option Row) :=
  let result := fun key : SortKey =>
    { id := row.id
      receivedUs := row.record.receivedAtUs
      localSchema := row.record.schemaVersion.toNat
      sortKey := key
      record := row.record : Row }
  if selects source query row = false then .ok none
  else if query.sort.isNone ∧ query.conditions.isEmpty then .ok (some (result .missing))
  else
    match schemas.lookup row.record.schemaVersion.toNat with
    | none => .ok none
    | some schema => do
      if ¬ query.conditions.isEmpty then
        validateRecord schema row.record
        unless ← matchesConditions row.record schema query.conditions do
          return none
      match query.sort with
      | none => return some (result .missing)
      | some sort => return some (result (← sortKey schema row.record sort.field))

/-- The rows of a statement's result, before they are sorted. -/
def select (d : RecordDirectory) (source : RecordSource) (query : Query) :
    Except String (List Row) :=
  match d.volumes source.path with
  | none => .error "unable to open database file"
  | some directory =>
    match directory.database with
    | .absent => .error "unable to open database file"
    | .created => .error "no such table: records"
    | .holds database => do
      let rows ← database.records.mapM (selectRow database.schemas source query)
      return rows.reduceOption

def globalId (cursor : Cursor) : Except String ℤ := do
  invalid (cursor.current.id ≤ 0 ∨ cursor.source.idBase < 0 ∨
    int64Max - cursor.source.idBase < cursor.current.id) "invalid global record ID"
  return cursor.source.idBase + cursor.current.id

def keyBytes (memory : MemorySizes) (cursor : Cursor) : ℕ :=
  match cursor.current.sortKey.value with
  | .string text => memory.cursor + memory.capacity text
  | .bytes bytes => memory.cursor + memory.capacity bytes
  | _ => memory.cursor

/-- The record of the current row, with the schema's number in the snapshot. -/
def record (snapshot : RecordSnapshot) (cursor : Cursor) : Except String Record :=
  match cursor.source.schemaIds.lookup cursor.current.localSchema with
  | none => .error "map::at"
  | some version =>
    match snapshot.schemas.lookup version with
    | none => .error "map::at"
    | some schema => do
      let record := { cursor.current.record with schemaVersion := UInt64.ofNat version }
      validateRecord schema record
      return record

end Cursor

/-! ### The merge of the cursors -/

/-- The cursors wait in the order of the queue, the top one first. -/
structure Merge where
  bytes : ℕ := 0
  heap : List Cursor := []

namespace Merge

def compareKeys (left right : SortKey) : Except String ℤ :=
  if left.type ≠ right.type then .ok (if left.type < right.type then -1 else 1)
  else compareValues left.value right.value

/-- The part of `before` for rows that tie in the sort column. -/
def beforeTied (a b : Cursor) : Except String Bool :=
  if a.current.receivedUs ≠ b.current.receivedUs then
    .ok (a.current.receivedUs < b.current.receivedUs)
  else do
    let left ← a.globalId
    let right ← b.globalId
    return left < right

def before (sort : Option FieldSort) (a b : Cursor) : Except String Bool :=
  match sort with
  | none => beforeTied a b
  | some sort => do
    let order ← compareKeys a.current.sortKey b.current.sortKey
    if order ≠ 0 then
      return if sort.descending then 0 < order else order < 0
    else beforeTied a b

def addBytes (budget size bytes : ℕ) : Except String ℕ := do
  invalid (budget - bytes < size) "cross-volume cursor memory budget exceeded"
  return bytes + size

def push (sort : Option FieldSort) (cursor : Cursor) : List Cursor → Except String (List Cursor)
  | [] => .ok [cursor]
  | first :: heap => do
    if ← before sort first cursor then
      return first :: (← push sort cursor heap)
    else return cursor :: first :: heap

/-- Counts a cursor in and queues it, if it has a row. -/
def queueRows (memory : MemorySizes) (budget : ℕ) (sort : Option FieldSort)
    (source : RecordSource) (rows : List Row) (merge : Merge) : Except String Merge :=
  match rows with
  | [] => .ok merge
  | current :: rest => do
    let cursor : Cursor := { source, current, rest }
    let bytes ← addBytes budget (cursor.keyBytes memory) merge.bytes
    return { bytes, heap := ← push sort cursor merge.heap }

/-- Whether a source may have records of the dataset. -/
def hasDataset (snapshot : RecordSnapshot) (dataset : Text) : List (ℕ × ℕ) → Except String Bool
  | [] => .ok false
  | entry :: schemaIds =>
    match snapshot.schemas.lookup entry.2 with
    | none => .error "map::at"
    | some schema =>
      if schema.dataset = dataset then .ok true else hasDataset snapshot dataset schemaIds

/-- The rows a source takes part with, before they are sorted. -/
def sourceRows (d : RecordDirectory) (snapshot : RecordSnapshot) (query : Query)
    (source : RecordSource) : Except String (List Row) := do
  if source.cutoff = 0 then return []
  if ¬ query.dataset.isEmpty then
    unless ← hasDataset snapshot query.dataset source.schemaIds do
      return []
  Cursor.select d source query

def queueSources (sqlite : Sqlite) (memory : MemorySizes) (budget : ℕ) (d : RecordDirectory)
    (snapshot : RecordSnapshot) (query : Query) : List RecordSource → Merge → Except String Merge
  | [], merge => .ok merge
  | source :: sources, merge => do
    let rows ← sourceRows d snapshot query source
    let merge ← queueRows memory budget query.sort source (sqlite.orderBy query.sort rows) merge
    queueSources sqlite memory budget d snapshot query sources merge

def create (sqlite : Sqlite) (memory : MemorySizes) (budget : ℕ) (d : RecordDirectory)
    (snapshot : RecordSnapshot) (query : Query) : Except String Merge :=
  queueSources sqlite memory budget d snapshot query snapshot.sources {}

def valid (merge : Merge) : Bool := !merge.heap.isEmpty

/-- `current` of the cursor at the top. -/
def currentOf (snapshot : RecordSnapshot) (top : Cursor) : Except String (Record × ℤ) := do
  return (← top.record snapshot, ← top.globalId)

def advance (memory : MemorySizes) (budget : ℕ) (sort : Option FieldSort) (merge : Merge) :
    Except String Merge :=
  match merge.heap with
  | [] => .ok merge
  | top :: heap =>
    queueRows memory budget sort top.source top.rest
      { bytes := merge.bytes - top.keyBytes memory, heap }

/-- Advances past the offset. -/
def skip (memory : MemorySizes) (budget : ℕ) (sort : Option FieldSort) :
    ℕ → Merge → Except String Merge
  | 0, merge => .ok merge
  | offset + 1, merge =>
    if merge.valid then do
      skip memory budget sort offset (← merge.advance memory budget sort)
    else .ok merge

end Merge

/-! ### Pages -/

structure Completion where
  snapshot : ℤ
  records : List Record := []
  rowIds : List ℤ := []
  schemas : List (ℕ × Schema) := []
  more : Bool := false

namespace RecordQueryService

/-- The page read so far, and the bytes it takes. -/
structure Page where
  bytes : ℕ := 0
  records : List Record := []
  rowIds : List ℤ := []
  schemas : List (ℕ × Schema) := []

def Page.addBytes (memoryBudget size : ℕ) (page : Page) : Except String Page := do
  invalid (memoryBudget / 16 - page.bytes < size)
    "query page exceeds memory budget; reduce page size"
  return { page with bytes := page.bytes + size }

def Page.addSchema (memory : MemorySizes) (memoryBudget : ℕ) (snapshot : RecordSnapshot)
    (version : ℕ) (page : Page) : Except String Page :=
  if (page.schemas.lookup version).isSome then .ok page
  else
    match snapshot.schemas.lookup version with
    | none => .error "map::at"
    | some schema => do
      let page ← page.addBytes memoryBudget (memory.schemaBytes schema)
      return { page with schemas := page.schemas ++ [(version, schema)] }

/-- `sizeof(id)` -/
def sizeofId : ℕ := 8

def Page.add (memory : MemorySizes) (memoryBudget : ℕ) (snapshot : RecordSnapshot)
    (record : Record) (id : ℤ) (page : Page) : Except String Page := do
  let page ← page.addSchema memory memoryBudget snapshot record.schemaVersion.toNat
  let page ← page.addBytes memoryBudget (memory.recordMemoryBytes record + sizeofId)
  return { page with records := page.records ++ [record], rowIds := page.rowIds ++ [id] }

/-- Reads at most `limit` more rows. -/
def collect (memory : MemorySizes) (memoryBudget : ℕ) (snapshot : RecordSnapshot)
    (sort : Option FieldSort) : ℕ → Page → Merge → Except String (Page × Merge)
  | 0, page, merge => .ok (page, merge)
  | limit + 1, page, merge =>
    match merge.heap with
    | [] => .ok (page, merge)
    | top :: _ => do
      let (record, id) ← Merge.currentOf snapshot top
      let page ← page.add memory memoryBudget snapshot record id
      let merge ← merge.advance memory memoryBudget sort
      collect memory memoryBudget snapshot sort limit page merge

/-- `query` with the snapshot of its token. -/
def query (sqlite : Sqlite) (memory : MemorySizes) (memoryBudget : ℕ) (d : RecordDirectory)
    (lease : RecordSnapshot) (query : Query) : Except String Completion := do
  let merge ← Merge.create sqlite memory memoryBudget d lease query
  let merge ← merge.skip memory memoryBudget query.sort query.offset
  let (page, merge) ← collect memory memoryBudget lease query.sort query.limit {} merge
  return {
    snapshot := lease.token
    records := page.records
    rowIds := page.rowIds
    schemas := page.schemas
    more := merge.valid }

end RecordQueryService

end ProtoScope.Storage
