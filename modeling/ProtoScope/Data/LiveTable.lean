/-
The table of the latest records, and its pages.

A record is taken when the schema accepts it and it is not larger than the whole table; older
rows then leave from the front until both limits hold again.  A page is cut from the rows that
pass the filter, sorted by a column, then by the time they were received, then by their number.

Capacities and sizes of objects in memory, which the compiler and its library decide, come
from outside.  A view shows one state of the table.
-/
import ProtoScope.Data.Query
import ProtoScope.Data.ValueCodec

namespace ProtoScope.Data

/-! ### Memory -/

/-- `sizeof` of the objects a row is made of. -/
structure RowSizes where
  record : ℕ
  value : ℕ
  tableRow : ℕ

/-- `capacity()` of the containers of a record; `contents` has one number a value, which
counts for texts and bytes. -/
structure RecordCapacity where
  protocol : ℕ
  dataset : ℕ
  device : ℕ
  values : ℕ
  contents : List ℕ

def contentBytes : List Value → List ℕ → Except String ℕ
  | [], _ => .ok 0
  | value :: values, contents => do
    let size ←
      match value with
      | .string _ => .ok (contents.headD 0)
      | .bytes _ => .ok (contents.headD 0)
      | .array _ => .error "table record requires scalar fields"
      | .object _ => .error "table record requires scalar fields"
      | _ => .ok 0
    return size + (← contentBytes values contents.tail)

def recordMemoryBytes (sizes : RowSizes) (capacity : RecordCapacity) (record : Record) :
    Except String ℕ := do
  let contents ← contentBytes record.values capacity.contents
  return sizes.record + capacity.protocol + capacity.dataset + capacity.device +
    capacity.values * sizes.value + sizes.tableRow + 64 + contents

/-! ### Views -/

structure TableView where
  device : Option Text := none
  fromUs : Option Int64 := none
  toUs : Option Int64 := none
  conditions : List FieldCondition := []
  sort : Option FieldSort := none
  offset : ℕ := 0
  limit : ℕ := 200

/-- The limits on the bytes of a condition's value. -/
def conditionLimits : ValueLimits := { maxBytes := 65536, maxDepth := 1 }

def checkConditions : ℕ → List FieldCondition → Except String Unit
  | _, [] => .ok ()
  | bytes, condition :: conditions => do
    invalid (condition.field.isEmpty ∨ 4096 < condition.field.length ∨ 0 ∈ condition.field ∨
      5 < condition.value.index) "invalid field condition"
    invalid (¬ ((condition.op = .isNull ∨ condition.op = .notNull) ↔ condition.value.index = 0))
      "null tests require is_null/not_null without a value"
    invalid (condition.op = .contains ∧ condition.value.index ≠ 4) "contains requires a string"
    let encoded ← encodeValue condition.value conditionLimits
    invalid (65536 < bytes + condition.field.length + encoded.length)
      "query conditions exceed 64 KiB"
    checkConditions (bytes + condition.field.length + encoded.length) conditions

def validateConditions (conditions : List FieldCondition) : Except String Unit := do
  invalid (16 < conditions.length) "query exceeds 16 field conditions"
  checkConditions 0 conditions

def FieldSort.isInvalid (sort : FieldSort) : Bool :=
  sort.field.isEmpty || 4096 < sort.field.length || sort.field.contains 0

/-- Whether the times of a view are the wrong way round. -/
def TableView.isReversed (view : TableView) : Bool :=
  match view.fromUs, view.toUs with
  | some fromUs, some toUs => toUs < fromUs
  | _, _ => false

def validateTableView (view : TableView) : Except String Unit := do
  validateConditions view.conditions
  invalid (view.limit < 1 ∨ 1000 < view.limit ∨ int64Max < (view.offset : ℤ) ∨
    view.isReversed = true ∨ (view.device.any fun device => 4096 < device.length) = true ∨
    (view.sort.any FieldSort.isInvalid) = true) "invalid table view"

/-! ### The table -/

/-- A row; it was checked against the schema when it was appended. -/
structure TableRow (schema : Schema) where
  id : ℕ
  record : Record
  valid : validateRecord schema record = .ok ()

structure Entry (schema : Schema) where
  row : TableRow schema
  bytes : ℕ

structure LiveTable (schema : Schema) where
  maxRows : ℕ := 200
  maxBytes : ℕ := 4 * 1024 * 1024
  rows : List (Entry schema) := []
  bytes : ℕ := 0
  nextId : ℕ := 1
  revision : ℕ := 0
  error : String := ""

namespace LiveTable

variable {schema : Schema}

def construct (schema : Schema) (maxRows maxBytes : ℕ) : Except String (LiveTable schema) := do
  validateSchema schema
  invalid (maxRows < 1 ∨ 1000 < maxRows ∨ maxBytes < 1 ∨ 16 * 1024 * 1024 < maxBytes)
    "invalid live table limits"
  return { maxRows, maxBytes }

/-- The loop of `append` over the oldest rows, with the bytes they and the others take. -/
def evict (maxRows maxBytes bytes : ℕ) : List (Entry schema) → ℕ → List (Entry schema) × ℕ
  | [], total => ([], total)
  | front :: rows, total =>
    if maxRows ≤ (front :: rows).length ∨ maxBytes - total < bytes then
      evict maxRows maxBytes bytes rows (total - front.bytes)
    else (front :: rows, total)

/-- `append` once the record is known to take `bytes`. -/
def appendValid (record : Record) (valid : validateRecord schema record = .ok ()) (bytes : ℕ)
    (table : LiveTable schema) : LiveTable schema × Bool :=
  if table.maxBytes < bytes then
    ({ table with
        revision := table.revision + 1
        error := "record exceeds live table memory limit" }, false)
  else
    let kept := evict table.maxRows table.maxBytes bytes table.rows table.bytes
    ({ table with
        rows := kept.1 ++ [⟨⟨table.nextId, record, valid⟩, bytes⟩]
        bytes := kept.2 + bytes
        nextId := table.nextId + 1
        revision := table.revision + 1
        error := "" }, true)

/-- A record that is refused leaves the table alone. -/
def append (sizes : RowSizes) (capacity : RecordCapacity) (record : Record)
    (table : LiveTable schema) : Except String (LiveTable schema × Bool) :=
  match valid : validateRecord schema record with
  | .error message => .error message
  | .ok () => do
    let bytes ← recordMemoryBytes sizes capacity record
    return table.appendValid record valid bytes

/-! ### Pages -/

/-- Whether a row is shown by a view. -/
def shows (view : TableView) (row : TableRow schema) : Except String Bool :=
  if view.device.any (· != row.record.device) ∨
      view.fromUs.any (fun fromUs => decide (row.record.receivedAtUs < fromUs)) ∨
      view.toUs.any (fun toUs => decide (toUs < row.record.receivedAtUs)) then .ok false
  else matchesConditions row.record schema view.conditions

def filterRows (view : TableView) : List (Entry schema) → Except String (List (TableRow schema))
  | [] => .ok []
  | entry :: entries => do
    let shown ← shows view entry.row
    let rows ← filterRows view entries
    return if shown then entry.row :: rows else rows

/-- The comparison of two cells; a field that the schema does not have comes first. -/
def compareFields : Option Value → Option Value → Except String ℤ
  | none, none => .ok 0
  | none, some _ => .ok (-1)
  | some _, none => .ok 1
  | some left, some right => compareValues left right

/-- The part of the comparison for rows that tie in the column. -/
def beforeTied (a b : TableRow schema) : Bool :=
  if a.record.receivedAtUs ≠ b.record.receivedAtUs then
    a.record.receivedAtUs < b.record.receivedAtUs
  else a.id < b.id

def before (sort : Option FieldSort) (a b : TableRow schema) : Except String Bool :=
  match sort with
  | none => .ok (beforeTied a b)
  | some sort => do
    let order ← compareFields (a.record.fieldValue schema sort.field)
      (b.record.fieldValue schema sort.field)
    if order ≠ 0 then
      return if sort.descending then 0 < order else order < 0
    else return beforeTied a b

def insertRow (sort : Option FieldSort) (row : TableRow schema) :
    List (TableRow schema) → Except String (List (TableRow schema))
  | [] => .ok [row]
  | first :: rows => do
    if ← before sort first row then return first :: (← insertRow sort row rows)
    else return row :: first :: rows

/-- `std::sort`; no two rows tie, so that every way of sorting gives the same. -/
def sortRows (sort : Option FieldSort) :
    List (TableRow schema) → Except String (List (TableRow schema))
  | [] => .ok []
  | row :: rows => do insertRow sort row (← sortRows sort rows)

structure TablePage (schema : Schema) where
  rows : List (TableRow schema)
  offset : ℕ
  limit : ℕ
  more : Bool
  revision : ℕ
  error : String

def page (view : TableView) (table : LiveTable schema) : Except String (TablePage schema) := do
  validateTableView view
  let selected ← filterRows view table.rows
  let sorted ← sortRows view.sort selected
  let first := min view.offset sorted.length
  let last := first + min view.limit (sorted.length - first)
  return {
    rows := (sorted.drop first).take (last - first)
    offset := view.offset
    limit := view.limit
    more := last < sorted.length
    revision := table.revision
    error := table.error }

end LiveTable

end ProtoScope.Data
