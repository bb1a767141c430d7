/-
What a stream schema says: the value types, the frame definitions and the buffer, and
what parsing it yields.

`size_t` is `Nat` and `int64_t` is `Int`; the places where the source guards against the
width of the machine word keep their guards, against `sizeMax` and the `int64` bounds.
A map keyed by name is an `AList`, which carries the uniqueness of its keys.
-/
import Mathlib.Data.List.AList

namespace ProtoScope.Scripting

inductive StreamValueType where
  | u8 | i8 | u16Be | u16Le | i16Be | i16Le | u32Be | u32Le | i32Be | i32Le | f32Be | f32Le
  | bytes
deriving DecidableEq, Repr

structure StreamValueTypeInfo where
  name : String
  width : Nat
  isFloat : Bool
  isSigned : Bool
  littleEndian : Bool

/-- The table `kStreamValueTypes`, row by row. -/
def streamValueTypeInfo : StreamValueType → StreamValueTypeInfo
  | .u8 => ⟨"u8", 1, false, false, false⟩
  | .i8 => ⟨"i8", 1, false, true, false⟩
  | .u16Be => ⟨"u16_be", 2, false, false, false⟩
  | .u16Le => ⟨"u16_le", 2, false, false, true⟩
  | .i16Be => ⟨"i16_be", 2, false, true, false⟩
  | .i16Le => ⟨"i16_le", 2, false, true, true⟩
  | .u32Be => ⟨"u32_be", 4, false, false, false⟩
  | .u32Le => ⟨"u32_le", 4, false, false, true⟩
  | .i32Be => ⟨"i32_be", 4, false, true, false⟩
  | .i32Le => ⟨"i32_le", 4, false, true, true⟩
  | .f32Be => ⟨"f32_be", 4, true, false, false⟩
  | .f32Le => ⟨"f32_le", 4, true, false, true⟩
  | .bytes => ⟨"bytes", 1, false, false, false⟩

def streamValueWidth (type : StreamValueType) : Nat := (streamValueTypeInfo type).width

def streamValueTypeIsFloat (type : StreamValueType) : Bool := (streamValueTypeInfo type).isFloat

inductive StreamLengthMeans where
  | payload | frame
deriving DecidableEq, Repr

inductive StreamCrcType where
  | none | crc16Modbus | crc16CcittFalse | crc32Ieee
deriving DecidableEq, Repr

inductive StreamCrcOrder where
  | hiLo | loHi
deriving DecidableEq, Repr

/-! ### Count expressions -/

inductive StreamCountExpressionOp where
  | constant | field | div | sub | mul | remaining | ifFlag | case | bitCount
deriving DecidableEq, Repr

mutual

/-- A `shared_ptr<StreamCountExpression>`: `null`, or the node with every member. -/
inductive StreamCountExpression where
  | null
  | node (op : StreamCountExpressionOp) (value argument : Int) (fieldName : String)
      (excludeCrc : Bool)
      (operand argumentExpression thenExpression elseExpression defaultExpression :
        StreamCountExpression)
      (cases : StreamCountCases)

/-- The `vector<StreamCountCase>` of a node. -/
inductive StreamCountCases where
  | nil
  | cons (value : Int) (expression : StreamCountExpression) (rest : StreamCountCases)

end

structure StreamFieldCount where
  fixed : Option Nat := none
  fieldName : Option String := none
  expression : StreamCountExpression := .null

/-! ### Values and definitions -/

/-- The variant a decoded field holds. -/
inductive StreamFieldValue where
  | integer (value : Int)
  | real (value : Float)
  | integers (values : List Int)
  | reals (values : List Float)
  | bytes (values : List UInt8)
deriving DecidableEq

def StreamFieldValue.integerScalar : StreamFieldValue → Option Int
  | .integer value => some value
  | _ => none

abbrev StreamFieldMap := AList fun _ : String => StreamFieldValue

structure StreamFieldDefinition where
  name : String
  type : StreamValueType := .u8
  offset : Option Nat := none
  count : StreamFieldCount := {}

structure StreamLengthDefinition where
  offset : Nat := 0
  type : StreamValueType := .u8
  means : StreamLengthMeans := .payload
  extra : Nat := 0

structure StreamCrcDefinition where
  type : StreamCrcType := .none
  order : StreamCrcOrder := .loHi

structure StreamFrameDefinition where
  name : String
  header : List UInt8
  size : Option Nat := none
  len : Option StreamLengthDefinition := none
  crc : StreamCrcDefinition := {}
  fields : List StreamFieldDefinition := []
  runtimeProfile : Bool := false

structure StreamBufferDefinition where
  capacity : Nat := 4096
  maxCapacity : Nat := 256 * 1024 * 1024
  dropOldest : Bool := false
  nearOverflowThresholdRatio : Float := 0.8
  nearOverflowNotify : Bool := true

structure StreamRuntimeProfile where
  length : Nat := 0
  channelMap : List Nat := []

/-! ### What a push returns -/

structure StreamParsedFrame where
  name : String
  raw : List UInt8
  fields : StreamFieldMap
  crcOk : Bool
  channelMap : List Nat
deriving DecidableEq

inductive StreamParseErrorCode where
  | overflow | noiseDiscarded | invalidLength | crcMismatch | fieldDecodeFailed
  | countResolveFailed
deriving DecidableEq, Repr

structure StreamParseError where
  code : StreamParseErrorCode
  message : String
  frameName : Option String
  droppedBytes : Nat
  raw : List UInt8
deriving DecidableEq, Repr

/-- An event names its kind and its index in the batch's list of that kind. -/
inductive StreamParseEvent where
  | frame (index : Nat)
  | error (index : Nat)
deriving DecidableEq, Repr

structure StreamParseBatch where
  frames : List StreamParsedFrame := []
  errors : List StreamParseError := []
  bufferSize : Nat := 0
  bufferCapacity : Nat := 0
  nearOverflow : Bool := false
  overflowed : Bool := false
  droppedBytes : Nat := 0
  events : List StreamParseEvent := []

structure StreamParseOptions where
  includeFrameRaw : Bool := true

end ProtoScope.Scripting
