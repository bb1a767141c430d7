/-
Schemas, records and their values.

A `std::string` is any sequence of bytes, so names and texts are byte sequences here.
-/
import Mathlib.Algebra.GroupWithZero.Nat
import Mathlib.Data.Int.Notation
import Mathlib.Data.Nat.Notation
import Mathlib.Tactic.Common
import ProtoScope.Library.OrderedMap

namespace ProtoScope.Data

open ProtoScope.Library

def int64Max : ℤ := 9223372036854775807

/-- `std::string` -/
abbrev Text : Type := List UInt8

/-- The bytes of a string literal. -/
def text (literal : String) : Text := literal.toUTF8.data.toList

inductive Value where
  | null
  | int64 (value : Int64)
  | double (value : Float)
  | bool (value : Bool)
  | string (value : Text)
  | bytes (value : List UInt8)
  | array (values : List Value)
  | object (entries : List (Text × Value))

/-- The alternative a value holds, which is also the tag of its encoding. -/
def Value.index : Value → ℕ
  | .null => 0
  | .int64 _ => 1
  | .double _ => 2
  | .bool _ => 3
  | .string _ => 4
  | .bytes _ => 5
  | .array _ => 6
  | .object _ => 7

inductive FieldType where
  | int64
  | double
  | bool
  | string
  | bytes
deriving DecidableEq, Repr

def FieldType.index : FieldType → ℕ
  | .int64 => 1
  | .double => 2
  | .bool => 3
  | .string => 4
  | .bytes => 5

structure Field where
  name : Text
  type : FieldType := .double
  nullable : Bool := true
deriving DecidableEq, Repr

structure Schema where
  dataset : Text
  fields : List Field
deriving DecidableEq, Repr

structure Record where
  protocol : Text
  dataset : Text
  device : Text
  receivedAtUs : Int64 := 0
  deviceTimeUs : Option Int64 := none
  schemaVersion : UInt64 := 0
  values : List Value

/-- `std::map<std::uint64_t, Schema>`, from versions to schemas. -/
structure Schemas where
  entries : List (UInt64 × Schema) := []
  ascending : OrderedMap.Ascending entries := by decide

def Schemas.empty : Schemas := {}

def Schemas.find (schemas : Schemas) (version : UInt64) : Option Schema :=
  schemas.entries.lookup version

def Schemas.emplace (schemas : Schemas) (version : UInt64) (schema : Schema) : Option Schemas :=
  match h : OrderedMap.emplace version schema schemas.entries with
  | none => none
  | some entries => some ⟨entries, OrderedMap.emplace_ascending schemas.ascending h⟩

structure ValueLimits where
  maxBytes : UInt64 := 256 * 1024
  maxDepth : UInt64 := 16
  maxNodes : UInt64 := 18446744073709551615

def invalid (condition : Prop) [Decidable condition] (message : String) : Except String Unit :=
  if condition then .error message else .ok ()

theorem ok_bind {ε α β : Type} (a : α) (next : α → Except ε β) :
    (Except.ok a >>= next) = next a :=
  rfl

theorem bind_eq_ok {ε α β : Type} {first : Except ε α} {next : α → Except ε β} {b : β} :
    (first >>= next) = .ok b ↔ ∃ a, first = .ok a ∧ next a = .ok b := by
  cases first with
  | error e =>
    constructor
    · intro h
      cases h
    · rintro ⟨a, h, -⟩
      cases h
  | ok a =>
    constructor
    · intro h
      exact ⟨a, rfl, h⟩
    · rintro ⟨a', h, hnext⟩
      cases h
      exact hnext

theorem pure_eq_ok {ε α : Type} {a b : α} : (pure a : Except ε α) = .ok b ↔ a = b := by
  constructor
  · intro h
    cases h
    rfl
  · intro h
    rw [h]
    rfl

theorem invalid_eq_ok {condition : Prop} [Decidable condition] {message : String} {u : Unit} :
    invalid condition message = .ok u ↔ ¬ condition := by
  unfold invalid
  split
  · rename_i h
    constructor
    · intro hok
      cases hok
    · intro hnot
      exact absurd h hnot
  · rename_i h
    exact ⟨fun _ => h, fun _ => rfl⟩

theorem invalid_of_not {condition : Prop} [Decidable condition] (h : ¬ condition)
    (message : String) : invalid condition message = .ok () :=
  if_neg h

/-- A check that has passed, and what was done after it. -/
theorem invalid_of_ok {condition : Prop} [Decidable condition] {message : String} {α : Type}
    {next : Unit → Except String α} {a : α}
    (h : (invalid condition message >>= next) = .ok a) : ¬ condition ∧ next () = .ok a := by
  obtain ⟨_, hcheck, hnext⟩ := bind_eq_ok.mp h
  exact ⟨invalid_eq_ok.mp hcheck, hnext⟩

def checkName (name : Text) : Except String Unit :=
  invalid (name.isEmpty ∨ 128 < name.length ∨ 0 ∈ name)
    "数据集或字段名称必须为 1 到 128 字节且不含 NUL"

def checkFields : List Field → List Text → Except String Unit
  | [], _ => .ok ()
  | field :: fields, names => do
    checkName field.name
    invalid (field.name ∈ names) "数据集字段名称重复"
    checkFields fields (field.name :: names)

def validateSchema (schema : Schema) : Except String Unit := do
  checkName schema.dataset
  invalid (schema.fields.isEmpty ∨ 1024 < schema.fields.length) "字段数量必须为 1 到 1024"
  checkFields schema.fields []

def checkValue (field : Field) (value : Value) : Except String Unit := do
  invalid (value.index = 0 ∧ field.nullable = false) "必填字段不能为 null"
  invalid (value.index ≠ 0 ∧ value.index ≠ field.type.index) "记录字段类型不匹配"
  match value with
  | .double number => invalid (number.isFinite = false) "记录不能包含非有限浮点数"
  | _ => .ok ()

def checkValues : List Field → List Value → Except String Unit
  | field :: fields, value :: values => do
    checkValue field value
    checkValues fields values
  | _, _ => .ok ()

def validateRecord (schema : Schema) (record : Record) : Except String Unit := do
  validateSchema schema
  invalid (record.protocol.isEmpty ∨ 4096 < record.protocol.length ∨
    4096 < record.device.length) "协议或设备标识无效"
  invalid (record.dataset ≠ schema.dataset ∨ record.values.length ≠ schema.fields.length)
    "记录与数据集模式不匹配"
  checkValues schema.fields record.values

/-! ### Schemas and records as values -/

def FieldType.ofIndex : ℤ → Except String FieldType
  | 1 => .ok .int64
  | 2 => .ok .double
  | 3 => .ok .bool
  | 4 => .ok .string
  | 5 => .ok .bytes
  | _ => .error "不支持的字段类型"

def schemaValue (schema : Schema) : Except String Value := do
  validateSchema schema
  return .array [.string schema.dataset,
    .array (schema.fields.map fun field =>
      .array [.string field.name, .int64 (Int64.ofNat field.type.index), .bool field.nullable])]

def Value.asString : Value → Except String Text
  | .string value => .ok value
  | _ => .error "结构化值类型不匹配"

def Value.asInt64 : Value → Except String Int64
  | .int64 value => .ok value
  | _ => .error "结构化值类型不匹配"

def Value.asBool : Value → Except String Bool
  | .bool value => .ok value
  | _ => .error "结构化值类型不匹配"

def Value.asArray : Value → Except String (List Value)
  | .array values => .ok values
  | _ => .error "结构化值类型不匹配"

def fieldFromValue (value : Value) : Except String Field := do
  match ← value.asArray with
  | [name, type, nullable] =>
    let type ← FieldType.ofIndex (← type.asInt64).toInt
    return { name := ← name.asString, type := type, nullable := ← nullable.asBool }
  | _ => .error "结构化值字段数量不匹配"

def schemaFromValue (value : Value) : Except String Schema := do
  match ← value.asArray with
  | [dataset, fields] =>
    let dataset ← dataset.asString
    let fields ← (← fields.asArray).mapM fieldFromValue
    validateSchema { dataset, fields }
    return { dataset, fields }
  | _ => .error "结构化值字段数量不匹配"

def recordValue (record : Record) : Except String Value := do
  invalid (int64Max < (record.schemaVersion.toNat : ℤ)) "模式版本超出范围"
  return .array [.string record.protocol, .string record.dataset, .string record.device,
    .int64 record.receivedAtUs, (record.deviceTimeUs.map .int64).getD .null,
    .int64 record.schemaVersion.toInt64, .array record.values]

def recordFromValue (value : Value) : Except String Record := do
  match ← value.asArray with
  | [protocol, dataset, device, receivedAtUs, deviceTimeUs, version, values] =>
    let version ← version.asInt64
    invalid (version < 0) "模式版本不能为负"
    let protocol ← protocol.asString
    let dataset ← dataset.asString
    let device ← device.asString
    let receivedAtUs ← receivedAtUs.asInt64
    let values ← values.asArray
    let deviceTimeUs ← if deviceTimeUs.index ≠ 0 then some <$> deviceTimeUs.asInt64 else pure none
    return { protocol, dataset, device, receivedAtUs, deviceTimeUs,
             schemaVersion := version.toUInt64, values }
  | _ => .error "结构化值字段数量不匹配"

/-- Takes the memory of values from a budget.  Texts and bytes take their length, any other
value `sizeofValue`, the `sizeof` of a value, which the compiler decides. -/
def checkMemory (sizeofValue : ℕ) (message : String) : ℕ → List Value → Except String Unit
  | _, [] => .ok ()
  | budget, value :: values => do
    let size :=
      match value with
      | .string text => text.length
      | .bytes bytes => bytes.length
      | _ => sizeofValue
    invalid (budget < size) message
    checkMemory sizeofValue message (budget - size) values

/-! ### Sizes of encodings -/

mutual

/-- The number of bytes `encodeValue` writes. -/
def Value.encodedBytes : Value → ℕ
  | .null => 1
  | .int64 _ => 9
  | .double _ => 9
  | .bool _ => 2
  | .string value => 9 + value.length
  | .bytes value => 9 + value.length
  | .array values => 9 + valuesBytes values
  | .object entries => 9 + entriesBytes entries

def valuesBytes : List Value → ℕ
  | [] => 0
  | value :: values => value.encodedBytes + valuesBytes values

def entriesBytes : List (Text × Value) → ℕ
  | [] => 0
  | (key, value) :: entries => 8 + key.length + value.encodedBytes + entriesBytes entries

end

/-- The size of `encodeValue` of a schema's value. -/
def schemaBytes (schema : Schema) : ℕ :=
  9 + (9 + schema.dataset.length) +
    (9 + (schema.fields.map fun field => 9 + (9 + field.name.length) + 9 + 2).sum)

end ProtoScope.Data
