/-
Reading the fields of one complete frame: raw values, the count expressions that say how
many elements a field has, and the decode of a whole field list.

A pointer and a length in the source is a list of bytes here; `raw` is the frame's own
bytes, CRC included, so that nothing in this file can look past the frame.  Each step
that can fail returns the error the source builds at that point.
-/
import ProtoScope.ProtocolUtils.Codec
import ProtoScope.Scripting.StreamTypes

namespace ProtoScope.Scripting

/-! ### Machine words -/

/-- `numeric_limits<size_t>::max()`. -/
def sizeMax : Nat := 2 ^ 64 - 1

def int64Min : Int := -2 ^ 63

def int64Max : Int := 2 ^ 63 - 1

def checkedAddSize (left right : Nat) : Option Nat :=
  if sizeMax - right < left then none else some (left + right)

def checkedMultiplySize (left right : Nat) : Option Nat :=
  if left ≠ 0 ∧ sizeMax / left < right then none else some (left * right)

def checkedSubtractInt64 (left right : Int) : Option Int :=
  if (0 < right ∧ left < int64Min + right) ∨ (right < 0 ∧ int64Max + right < left) then none
  else some (left - right)

def checkedMultiplyInt64 (left right : Int) : Option Int :=
  if 0 < left then
    if (0 < right ∧ int64Max.tdiv right < left) ∨ (right < 0 ∧ right < int64Min.tdiv left) then
      none
    else some (left * right)
  else if left < 0 then
    if (0 < right ∧ left < int64Min.tdiv right) ∨ (right < 0 ∧ left < int64Max.tdiv right) then
      none
    else some (left * right)
  else some (left * right)

/-- `static_cast<int64_t>` of an unsigned word. -/
def toInt64 (n : Nat) : Int := (BitVec.ofNat 64 n).toInt

/-- `static_cast<uint64_t>` of a signed word. -/
def toUInt64 (i : Int) : BitVec 64 := BitVec.ofInt 64 i

def popcount (word : BitVec 64) : Nat :=
  (List.range 64).countP fun bit => word.getLsbD bit

/-! ### Raw values -/

def readUnsignedValue (bytes : List UInt8) (width : Nat) (littleEndian : Bool) : UInt32 :=
  (List.range width).foldl
    (fun value index =>
      let byte := (bytes.getD (if littleEndian then index else width - index - 1) 0).toUInt32
      value ||| (byte <<< (UInt32.ofNat (index * 8)))) 0

def decodeInteger (raw : List UInt8) (offset : Nat) (type : StreamValueType) : Option Int :=
  let info := streamValueTypeInfo type
  if info.isFloat || type == .bytes || raw.length < offset || raw.length - offset < info.width then
    none
  else
    let rawValue := readUnsignedValue (raw.drop offset) info.width info.littleEndian
    if !info.isSigned then some rawValue.toNat
    else
      match info.width with
      | 1 => some rawValue.toUInt8.toInt8.toInt
      | 2 => some rawValue.toUInt16.toInt16.toInt
      | 4 => some rawValue.toInt32.toInt
      | _ => none

/-- `static_cast<double>(bit_cast<float>(bits))`: widening is exact, and a NaN is made quiet. -/
def widenFloat (bits : UInt32) : Float :=
  let sign : UInt64 := (bits >>> 31).toUInt64 <<< 63
  let exponent : UInt64 := (bits >>> 23).toUInt64 &&& 0xFF
  let fraction : UInt64 := bits.toUInt64 &&& 0x7FFFFF
  let wide : UInt64 := fraction <<< 29
  if exponent = 0xFF then
    if fraction = 0 then Float.ofBits (sign ||| 0x7FF0000000000000)
    else Float.ofBits (sign ||| 0x7FF8000000000000 ||| wide)
  else if exponent = 0 then
    if fraction = 0 then Float.ofBits sign
    else
      -- A subnormal gets its leading one shifted out of the fraction.
      let top : UInt64 := UInt64.ofNat fraction.toNat.log2
      let scaled : UInt64 := (top + 874) <<< 52
      let rest : UInt64 := (fraction <<< (52 - top)) &&& 0xFFFFFFFFFFFFF
      Float.ofBits (sign ||| scaled ||| rest)
  else
    let scaled : UInt64 := (exponent + 896) <<< 52
    Float.ofBits (sign ||| scaled ||| wide)

def decodeFloat (raw : List UInt8) (offset : Nat) (type : StreamValueType) : Option Float :=
  let info := streamValueTypeInfo type
  if !info.isFloat || raw.length < offset || raw.length - offset < info.width then none
  else some (widenFloat (readUnsignedValue (raw.drop offset) info.width info.littleEndian))

def streamCrcWidth : StreamCrcType → Nat
  | .crc16Modbus => 2
  | .crc16CcittFalse => 2
  | .crc32Ieee => 4
  | .none => 0

/-- The CRC a frame carries in its last `crcWidth` bytes. -/
def readCrcValue (raw : List UInt8) (crcWidth : Nat) (order : StreamCrcOrder) : UInt32 :=
  let start := raw.length - crcWidth
  match order with
  | .loHi => (List.range crcWidth).foldl (fun value index =>
      value ||| ((raw.getD (start + index) 0).toUInt32 <<< UInt32.ofNat (index * 8))) 0
  | .hiLo => (List.range crcWidth).foldl (fun value index =>
      (value <<< 8) ||| (raw.getD (start + index) 0).toUInt32) 0

/-! ### Count expressions -/

def streamCountFieldValue (parsed : StreamFieldMap) (fieldName : String) : Except String Int :=
  match parsed.lookup fieldName with
  | none => .error ("引用字段不存在: " ++ fieldName)
  | some field =>
    match field.integerScalar with
    | none => .error ("引用字段不是整数: " ++ fieldName)
    | some value => .ok value

structure StreamCountEvaluationContext where
  parsed : StreamFieldMap
  frameLength : Nat
  readableLimit : Nat
  fieldStart : Nat
  fieldWidth : Nat

def divCount (value argument : Int) : Except String Int :=
  if argument = 0 then .error "div.by 不能为 0"
  else if value = int64Min ∧ argument = -1 then .error "div count 表达式溢出"
  else .ok (value.tdiv argument)

def subCount (value argument : Int) : Except String Int :=
  match checkedSubtractInt64 value argument with
  | none => .error "sub count 表达式溢出"
  | some result => .ok result

def mulCount (value argument : Int) : Except String Int :=
  match checkedMultiplyInt64 value argument with
  | none => .error "mul count 表达式溢出"
  | some result => .ok result

def evaluateRemainingCountExpression (context : StreamCountEvaluationContext) (argument : Int)
    (excludeCrc : Bool) : Except String Int :=
  let limit := if excludeCrc then context.readableLimit else context.frameLength
  let unit := if 0 < argument then argument.toNat else context.fieldWidth
  if unit = 0 then .error "remaining.unit 必须大于 0"
  else if limit < context.fieldStart then .error "remaining 起点超出帧边界"
  else .ok (toInt64 ((limit - context.fieldStart) / unit))

mutual

/-- `evaluateStreamCountExpression`, with what the caller answers for a null pointer. -/
def evaluateStreamCountExpression (context : StreamCountEvaluationContext)
    (onNull : Except String Int) : StreamCountExpression → Except String Int
  | .null => onNull
  | .node op value argument fieldName excludeCrc operand argumentExpression thenExpression
      elseExpression defaultExpression cases =>
    match op with
    | .constant => .ok value
    | .field => streamCountFieldValue context.parsed fieldName
    | .div => do
      let value ← evaluateStreamCountExpression context (.error ("div" ++ " 缺少 operand")) operand
      let argument ← evaluateStreamCountExpression context (.ok argument) argumentExpression
      divCount value argument
    | .sub => do
      let value ← evaluateStreamCountExpression context (.error ("sub" ++ " 缺少 operand")) operand
      subCount value argument
    | .mul => do
      let value ← evaluateStreamCountExpression context (.error ("mul" ++ " 缺少 operand")) operand
      let argument ← evaluateStreamCountExpression context (.ok argument) argumentExpression
      mulCount value argument
    | .remaining => evaluateRemainingCountExpression context argument excludeCrc
    | .ifFlag => do
      let value ← streamCountFieldValue context.parsed fieldName
      let missing := .error "if_flag 缺少 then/else 表达式"
      if toUInt64 value &&& toUInt64 argument ≠ 0 then
        evaluateStreamCountExpression context missing thenExpression
      else
        evaluateStreamCountExpression context missing elseExpression
    | .case => do
      let value ← streamCountFieldValue context.parsed fieldName
      -- A matching case with no expression is passed over, as if it did not match.
      (evaluateCases context value cases).getD
        (evaluateStreamCountExpression context (.error "case 未匹配且没有 default")
          defaultExpression)
    | .bitCount => do
      let value ← evaluateStreamCountExpression context (.error ("bit_count" ++ " 缺少 operand"))
        operand
      .ok (popcount (toUInt64 value))

/-- The first case that matches and has an expression. -/
def evaluateCases (context : StreamCountEvaluationContext) (value : Int) :
    StreamCountCases → Option (Except String Int)
  | .nil => none
  | .cons caseValue expression rest =>
    if caseValue = value then
      match expression with
      | .null => evaluateCases context value rest
      | .node .. => some (evaluateStreamCountExpression context (.error "") expression)
    else evaluateCases context value rest

end

/-- `resolveFieldCount`: the error is empty only where the source leaves it empty. -/
def resolveFieldCount (field : StreamFieldDefinition) (parsed : StreamFieldMap)
    (frameLength readableLimit fieldStart : Nat) : Except String Nat :=
  match field.count.fixed, field.count.fieldName, field.count.expression with
  | some fixed, _, _ => .ok fixed
  | none, some fieldName, _ =>
    match parsed.lookup fieldName with
    | none => .error "引用字段不存在"
    | some field =>
      match field.integerScalar with
      | none => .error "引用字段不是非负整数"
      | some value => if value < 0 then .error "引用字段不是非负整数" else .ok value.toNat
  | none, none, .null => .ok 1
  | none, none, expression => do
    let value ← evaluateStreamCountExpression
      ⟨parsed, frameLength, readableLimit, fieldStart, streamValueWidth field.type⟩
      (.error "") expression
    if value < 0 then .error "count 表达式结果不能为负数"
    else if sizeMax < value.toNat then .error "count 表达式结果过大"
    else .ok value.toNat

end ProtoScope.Scripting
