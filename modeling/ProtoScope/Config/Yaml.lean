/-
YAML as the configuration uses it.

A document is a tree of scalars, sequences and maps.  A scalar that was written as a value of
some type is read back as that value; beyond this nothing about the text of a scalar is
used, so the tree stands for the text.
-/
import Mathlib.Data.Int.Init
import Mathlib.Tactic.Common
import Std.Data.ExtTreeMap

namespace ProtoScope.Config

inductive YamlScalar where
  | bool (value : Bool)
  | integer (value : ℤ)
  | double (value : Float)
  | float (value : Float32)
  | text (value : String)

inductive YamlNode where
  | null
  | scalar (value : YamlScalar)
  | sequence (items : List YamlNode)
  | map (entries : List (String × YamlNode))

/-- A type whose values are written as scalars and come back. -/
class YamlValue (α : Type) where
  encode : α → YamlScalar
  decode : YamlScalar → Option α
  decode_encode : ∀ value, decode (encode value) = some value

instance : YamlValue Bool where
  encode := .bool
  decode
    | .bool value => some value
    | _ => none
  decode_encode _ := rfl

instance : YamlValue String where
  encode := .text
  decode
    | .text value => some value
    | _ => none
  decode_encode _ := rfl

instance : YamlValue Float where
  encode := .double
  decode
    | .double value => some value
    | _ => none
  decode_encode _ := rfl

instance : YamlValue Float32 where
  encode := .float
  decode
    | .float value => some value
    | _ => none
  decode_encode _ := rfl

/-- An integer is read as any type it fits. -/
def decodeInteger (lower upper : ℤ) {α : Type} (convert : ℤ → α) : YamlScalar → Option α
  | .integer value => if lower ≤ value ∧ value ≤ upper then some (convert value) else none
  | _ => none

theorem decodeInteger_eq {lower upper value : ℤ} {α : Type} (convert : ℤ → α)
    (hlower : lower ≤ value) (hupper : value ≤ upper) :
    decodeInteger lower upper convert (.integer value) = some (convert value) :=
  if_pos ⟨hlower, hupper⟩

instance : YamlValue UInt16 where
  encode value := .integer value.toNat
  decode := decodeInteger 0 65535 fun value => .ofNat value.toNat
  decode_encode value := by
    rw [decodeInteger_eq _ (by omega) (by have := value.toNat_lt; omega), Int.toNat_natCast,
      UInt16.ofNat_toNat]

instance : YamlValue UInt32 where
  encode value := .integer value.toNat
  decode := decodeInteger 0 4294967295 fun value => .ofNat value.toNat
  decode_encode value := by
    rw [decodeInteger_eq _ (by omega) (by have := value.toNat_lt; omega), Int.toNat_natCast,
      UInt32.ofNat_toNat]

instance : YamlValue UInt64 where
  encode value := .integer value.toNat
  decode := decodeInteger 0 18446744073709551615 fun value => .ofNat value.toNat
  decode_encode value := by
    rw [decodeInteger_eq _ (by omega) (by have := value.toNat_lt; omega), Int.toNat_natCast,
      UInt64.ofNat_toNat]

instance : YamlValue Int32 where
  encode value := .integer value.toInt
  decode := decodeInteger (-2147483648) 2147483647 .ofInt
  decode_encode value :=
    (decodeInteger_eq Int32.ofInt value.le_toInt value.toInt_le).trans
      (congrArg some value.ofInt_toInt)

instance : YamlValue Int64 where
  encode value := .integer value.toInt
  decode := decodeInteger (-9223372036854775808) 9223372036854775807 .ofInt
  decode_encode value :=
    (decodeInteger_eq Int64.ofInt value.le_toInt value.toInt_le).trans
      (congrArg some value.ofInt_toInt)

/-- `node = value` -/
def yaml {α : Type} [YamlValue α] (value : α) : YamlNode := .scalar (YamlValue.encode value)

namespace YamlNode

/-- `node[key]`; `none` where the key is not there. -/
def subscript : YamlNode → String → Except String (Option YamlNode)
  | .map entries, key => .ok (entries.lookup key)
  | .scalar _, _ => .error "operator[] call on a scalar"
  | _, _ => .ok none

/-- `node.as<T>()` -/
def as {α : Type} [YamlValue α] : YamlNode → Except String α
  | .scalar value =>
    match YamlValue.decode value with
    | some value => .ok value
    | none => .error "bad conversion"
  | _ => .error "bad conversion"

/-- `node.as<T>(fallback)` -/
def asOr {α : Type} [YamlValue α] (node : YamlNode) (fallback : α) : α :=
  match node with
  | .scalar value => (YamlValue.decode value).getD fallback
  | _ => fallback

end YamlNode

/-- `childNode`: below a node that is not there it is a null node. -/
def childNode (node : Option YamlNode) (key : String) : Except String (Option YamlNode) :=
  match node with
  | some node => node.subscript key
  | none => .ok (some .null)

def readScalar {α : Type} [YamlValue α] (node : Option YamlNode) (key : String) (fallback : α) :
    Except String α :=
  match node with
  | some node => do
    match ← node.subscript key with
    | some value => value.as
    | none => return fallback
  | none => .ok fallback

/-- `hasScalar` -/
def hasScalar (node : Option YamlNode) (key : String) : Except String Bool :=
  match node with
  | some node => do return (← node.subscript key).isSome
  | none => .ok false

/-- What is loaded from a node that is there. -/
def whenDefined {α : Type} (node : Option YamlNode) (value : α)
    (load : YamlNode → Except String α) : Except String α :=
  match node with
  | some node => load node
  | none => .ok value

/-! ### Enumerations -/

section Enumerations

variable {α : Type}

/-- `lookupEnum` -/
def lookupName (names : List (α × String)) (text : String) (fallback : α) : α :=
  ((names.find? fun pair => pair.2 == text).map Prod.fst).getD fallback

/-- `enumToText` -/
def nameOf [BEq α] (names : List (α × String)) (otherwise : String) (value : α) : String :=
  ((names.find? fun pair => pair.1 == value).map Prod.snd).getD otherwise

/-- An enumeration whose values are written by their names and come back. -/
class YamlEnum (α : Type) [BEq α] where
  names : List (α × String)
  otherwise : String
  lookup_name : ∀ value fallback, lookupName names (nameOf names otherwise value) fallback = value

variable [BEq α] [YamlEnum α]

def lookupEnum (text : String) (fallback : α) : α := lookupName YamlEnum.names text fallback

def enumToText (value : α) : String := nameOf YamlEnum.names (YamlEnum.otherwise α) value

theorem lookupEnum_enumToText (value fallback : α) : lookupEnum (enumToText value) fallback = value :=
  YamlEnum.lookup_name value fallback

/-- `parse…(readScalar(…, to…Text(value)), value)` -/
def readEnum (node : Option YamlNode) (key : String) (value : α) : Except String α := do
  return lookupEnum (← readScalar node key (enumToText value)) value

end Enumerations

/-! ### Entries that may be left out -/

/-- An entry that is written under a condition. -/
def entryIf (condition : Bool) (key : String) (value : YamlNode) : List (String × YamlNode) :=
  if condition then [(key, value)] else []

end ProtoScope.Config
