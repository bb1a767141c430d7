/-
The tagged encoding of values.

A value is a tag, then its bytes: integers and floats as eight bytes from the lowest up,
texts and bytes after their length, arrays and objects after the number of their entries.
Both sides count the values and the nesting against the limits.  The decoder takes bytes
from a span; taking one that is not there would be a fault of its own kind.
-/
import ProtoScope.Data.Model

namespace ProtoScope.Data

open ProtoScope.Library

/-! ### Encoder -/

structure Encoder where
  result : List UInt8 := []
  nodes : ℕ := 0

namespace Encoder

def byte (limits : ValueLimits) (value : UInt8) (encoder : Encoder) : Except String Encoder := do
  invalid (limits.maxBytes.toNat ≤ encoder.result.length) "值超过字节上限"
  return { encoder with result := encoder.result ++ [value] }

/-- The loop of `integer`, with `n` of the eight bytes left to write. -/
def integerFrom (limits : ValueLimits) (value : UInt64) :
    ℕ → ℕ → Encoder → Except String Encoder
  | 0, _, encoder => .ok encoder
  | n + 1, i, encoder => do
    let encoder ← encoder.byte limits (value >>> UInt64.ofNat (8 * i)).toUInt8
    integerFrom limits value n (i + 1) encoder

def integer (limits : ValueLimits) (value : UInt64) (encoder : Encoder) :
    Except String Encoder :=
  integerFrom limits value 8 0 encoder

def bytes (limits : ValueLimits) (value : List UInt8) (encoder : Encoder) :
    Except String Encoder := do
  let encoder ← encoder.integer limits (UInt64.ofNat value.length)
  invalid (limits.maxBytes.toNat - encoder.result.length < value.length) "值超过字节上限"
  return { encoder with result := encoder.result ++ value }

/-- The checks and the tag every value begins with. -/
def start (limits : ValueLimits) (index depth : ℕ) (encoder : Encoder) :
    Except String Encoder := do
  invalid (limits.maxNodes.toNat ≤ encoder.nodes) "值超过节点数量上限"
  invalid (limits.maxDepth.toNat < depth) "值超过嵌套深度上限"
  { encoder with nodes := encoder.nodes + 1 }.byte limits (UInt8.ofNat index)

mutual

def encode (limits : ValueLimits) : Value → ℕ → Encoder → Except String Encoder
  | .null, depth, encoder => encoder.start limits 0 depth
  | .int64 value, depth, encoder => do
    let encoder ← encoder.start limits 1 depth
    encoder.integer limits value.toUInt64
  | .double value, depth, encoder => do
    let encoder ← encoder.start limits 2 depth
    invalid (value.isFinite = false) "不支持非有限浮点数"
    encoder.integer limits value.toBits
  | .bool value, depth, encoder => do
    let encoder ← encoder.start limits 3 depth
    encoder.byte limits (if value then 1 else 0)
  | .string value, depth, encoder => do
    let encoder ← encoder.start limits 4 depth
    encoder.bytes limits value
  | .bytes value, depth, encoder => do
    let encoder ← encoder.start limits 5 depth
    encoder.bytes limits value
  | .array values, depth, encoder => do
    let encoder ← encoder.start limits 6 depth
    let encoder ← encoder.integer limits (UInt64.ofNat values.length)
    encodeValues limits values (depth + 1) encoder
  | .object entries, depth, encoder => do
    let encoder ← encoder.start limits 7 depth
    let encoder ← encoder.integer limits (UInt64.ofNat entries.length)
    encodeEntries limits entries (depth + 1) encoder

def encodeValues (limits : ValueLimits) : List Value → ℕ → Encoder → Except String Encoder
  | [], _, encoder => .ok encoder
  | value :: values, depth, encoder => do
    let encoder ← encode limits value depth encoder
    encodeValues limits values depth encoder

def encodeEntries (limits : ValueLimits) :
    List (Text × Value) → ℕ → Encoder → Except String Encoder
  | [], _, encoder => .ok encoder
  | (key, value) :: entries, depth, encoder => do
    let encoder ← encoder.bytes limits key
    let encoder ← encode limits value depth encoder
    encodeEntries limits entries depth encoder

end

end Encoder

def encodeValue (value : Value) (limits : ValueLimits) : Except String (List UInt8) := do
  let encoder ← Encoder.encode limits value 0 {}
  return encoder.result

/-! ### Decoder -/

/-- Why there is no decoded value: the input is refused, or a byte beyond its end was taken. -/
inductive Fault where
  | refused (message : String)
  | outOfBounds
deriving DecidableEq, Repr

def refuse (condition : Prop) [Decidable condition] (message : String) : Except Fault Unit :=
  if condition then .error (.refused message) else .ok ()

/-- `span.front()` -/
def front : List UInt8 → Except Fault UInt8
  | [] => .error .outOfBounds
  | byte :: _ => .ok byte

/-- `span.first(size)` -/
def first (span : List UInt8) (size : ℕ) : Except Fault (List UInt8) :=
  if size ≤ span.length then .ok (span.take size) else .error .outOfBounds

/-- `span.subspan(offset)` -/
def subspan (span : List UInt8) (offset : ℕ) : Except Fault (List UInt8) :=
  if offset ≤ span.length then .ok (span.drop offset) else .error .outOfBounds

structure Decoder where
  remaining : List UInt8
  nodes : ℕ := 0

namespace Decoder

def byte (decoder : Decoder) : Except Fault (UInt8 × Decoder) := do
  refuse (decoder.remaining.isEmpty) "值数据被截断"
  let result ← front decoder.remaining
  let remaining ← subspan decoder.remaining 1
  return (result, { decoder with remaining })

/-- The loop of `integer`, with `n` of the eight bytes left to read. -/
def integerFrom : ℕ → ℕ → UInt64 → Decoder → Except Fault (UInt64 × Decoder)
  | 0, _, result, decoder => .ok (result, decoder)
  | n + 1, i, result, decoder => do
    let (value, decoder) ← decoder.byte
    integerFrom n (i + 1) (result ||| (value.toUInt64 <<< UInt64.ofNat (8 * i))) decoder

def integer (decoder : Decoder) : Except Fault (UInt64 × Decoder) :=
  integerFrom 8 0 0 decoder

def count (decoder : Decoder) : Except Fault (ℕ × Decoder) := do
  let (result, decoder) ← decoder.integer
  refuse (decoder.remaining.length < result.toNat) "值长度超出输入范围"
  return (result.toNat, decoder)

def bytes (decoder : Decoder) : Except Fault (List UInt8 × Decoder) := do
  let (size, decoder) ← decoder.count
  let result ← first decoder.remaining size
  let remaining ← subspan decoder.remaining size
  return (result, { decoder with remaining })

/-- The elements of an array, `size` of them left to read. -/
def decodeValues (element : Decoder → Except Fault (Value × Decoder)) :
    ℕ → List Value → Decoder → Except Fault (List Value × Decoder)
  | 0, values, decoder => .ok (values, decoder)
  | size + 1, values, decoder => do
    let (value, decoder) ← element decoder
    decodeValues element size (values ++ [value]) decoder

/-- The entries of an object, `size` of them left to read. -/
def decodeEntries (element : Decoder → Except Fault (Value × Decoder)) :
    ℕ → List (Text × Value) → Decoder → Except Fault (List (Text × Value) × Decoder)
  | 0, values, decoder => .ok (values, decoder)
  | size + 1, values, decoder => do
    let (key, decoder) ← decoder.bytes
    let (value, decoder) ← element decoder
    match OrderedMap.emplace key value values with
    | none => .error (.refused "对象键重复")
    | some values => decodeEntries element size values decoder

/-- The switch over the tag of a value; `element` decodes a value one level deeper. -/
def decodeTagged (element : Decoder → Except Fault (Value × Decoder)) (tag : UInt8)
    (decoder : Decoder) : Except Fault (Value × Decoder) :=
  match tag.toNat with
  | 0 => return (.null, decoder)
  | 1 => do
    let (value, decoder) ← decoder.integer
    return (.int64 value.toInt64, decoder)
  | 2 => do
    let (bits, decoder) ← decoder.integer
    refuse ((Float.ofBits bits).isFinite = false) "不支持非有限浮点数"
    return (.double (Float.ofBits bits), decoder)
  | 3 => do
    let (value, decoder) ← decoder.byte
    refuse (1 < value) "布尔值编码无效"
    return (.bool (value ≠ 0), decoder)
  | 4 => do
    let (value, decoder) ← decoder.bytes
    return (.string value, decoder)
  | 5 => do
    let (value, decoder) ← decoder.bytes
    return (.bytes value, decoder)
  | 6 => do
    let (size, decoder) ← decoder.count
    let (values, decoder) ← decodeValues element size [] decoder
    return (.array values, decoder)
  | 7 => do
    let (size, decoder) ← decoder.count
    let (entries, decoder) ← decodeEntries element size [] decoder
    return (.object entries, decoder)
  | _ => .error (.refused "未知值类型")

def decode (limits : ValueLimits) (depth : ℕ) (decoder : Decoder) :
    Except Fault (Value × Decoder) := do
  refuse (limits.maxNodes.toNat ≤ decoder.nodes) "值超过节点数量上限"
  let decoder := { decoder with nodes := decoder.nodes + 1 }
  if _h : limits.maxDepth.toNat < depth then .error (.refused "值超过嵌套深度上限") else
  let (tag, decoder) ← decoder.byte
  decodeTagged (decode limits (depth + 1)) tag decoder
termination_by limits.maxDepth.toNat + 1 - depth

end Decoder

def decodeValue (bytes : List UInt8) (limits : ValueLimits) : Except Fault Value := do
  refuse (limits.maxBytes.toNat < bytes.length) "值超过字节上限"
  let (value, decoder) ← Decoder.decode limits 0 { remaining := bytes }
  refuse (decoder.remaining ≠ []) "值数据包含多余尾部"
  return value

end ProtoScope.Data
