/-
Conditions on the fields of a record, and the order of field values.

Values of different types are ordered by the tags of their types; no comparison converts a
text or a number.
-/
import Mathlib.Data.List.Infix
import ProtoScope.Data.Model

namespace ProtoScope.Data

inductive CompareOp where
  | equal
  | notEqual
  | less
  | lessEqual
  | greater
  | greaterEqual
  | contains
  | isNull
  | notNull
deriving DecidableEq, Repr

structure FieldCondition where
  field : Text
  op : CompareOp := .equal
  value : Value

structure FieldSort where
  field : Text
  descending : Bool := false
deriving DecidableEq, Repr

def Record.fieldValue (record : Record) (schema : Schema) (field : Text) : Option Value :=
  match schema.fields.findIdx? fun f => f.name == field with
  | none => none
  | some index => record.values[index]?

/-- `a<b ? -1 : a>b ? 1:0` -/
def compareScalars {α : Type} [LT α] [DecidableLT α] (a b : α) : ℤ :=
  if a < b then -1 else if b < a then 1 else 0

def compareValues (left right : Value) : Except String ℤ :=
  if left.index ≠ right.index then
    .ok (if left.index < right.index then -1 else 1)
  else
    match left, right with
    | .null, _ => .ok 0
    | .int64 a, .int64 b => .ok (compareScalars a b)
    | .double a, .double b => .ok (compareScalars a b)
    | .bool a, .bool b => .ok (compareScalars a b)
    | .string a, .string b => .ok (compareScalars a b)
    | .bytes a, .bytes b => .ok (compareScalars a b)
    | _, _ => .error "query values must be scalars"

/-- Whether a comparison with the given outcome holds. -/
def CompareOp.holds (op : CompareOp) (order : ℤ) : Bool :=
  match op with
  | .equal => order = 0
  | .notEqual => order ≠ 0
  | .less => order < 0
  | .lessEqual => order ≤ 0
  | .greater => 0 < order
  | .greaterEqual => 0 ≤ order
  | _ => true

/-- One turn of the loop of `matches`. -/
def FieldCondition.matchesRecord (condition : FieldCondition) (record : Record) (schema : Schema) :
    Except String Bool :=
  match record.fieldValue schema condition.field with
  -- a field the schema does not have is not a null field
  | none => .ok false
  | some value =>
    match condition.op with
    | .isNull => .ok (value.index = 0)
    | .notNull => .ok (value.index ≠ 0)
    | .contains =>
      if value.index ≠ condition.value.index then .ok false
      else do
        let hay ← value.asString
        let needle ← condition.value.asString
        return decide (needle <:+: hay)
    | op =>
      if value.index ≠ condition.value.index then .ok false
      else do
        return op.holds (← compareValues value condition.value)

/-- `matches` -/
def matchesConditions (record : Record) (schema : Schema) :
    List FieldCondition → Except String Bool
  | [] => .ok true
  | condition :: conditions => do
    if ← condition.matchesRecord record schema then matchesConditions record schema conditions
    else return false

end ProtoScope.Data
