/-
What the schema loader lets through.

A script's `stream()` returns a table, and the loader turns it into a buffer definition and
a list of frame definitions or refuses it with an error.  Each condition below is one that
the loader checks before it accepts, or that a Lua integer brings with it.  A `StreamSchema`
carries the conditions, so a parser that is built from one is built from an accepted schema.
-/
import ProtoScope.Scripting.FrameStreamParser

namespace ProtoScope.Scripting

def streamValueTypeCanBeLength (type : StreamValueType) : Bool :=
  type != .bytes && !streamValueTypeIsFloat type

def InInt64 (i : Int) : Prop := int64Min ≤ i ∧ i ≤ int64Max

instance (i : Int) : Decidable (InInt64 i) := inferInstanceAs (Decidable (_ ∧ _))

mutual

/-- `parseStreamCountExpressionObject`: every operand an operation needs is there, and the
unit of `remaining` is not negative. -/
def StreamCountExpression.Loaded : StreamCountExpression → Prop
  | .null => False
  | .node op value argument _ _ operand argumentExpression thenExpression elseExpression
      defaultExpression cases =>
    match op with
    | .constant => InInt64 value
    | .field => True
    | .sub => operand.Loaded ∧ InInt64 argument
    | .div => operand.Loaded ∧ InInt64 argument ∧
        (argumentExpression = .null ∨ argumentExpression.Loaded)
    | .mul => operand.Loaded ∧ InInt64 argument ∧
        (argumentExpression = .null ∨ argumentExpression.Loaded)
    | .remaining => 0 ≤ argument ∧ InInt64 argument
    | .ifFlag => InInt64 argument ∧ thenExpression.Loaded ∧ elseExpression.Loaded
    | .case => cases.Loaded ∧ (defaultExpression = .null ∨ defaultExpression.Loaded)
    | .bitCount => operand.Loaded

/-- `parseCaseCountEntries` -/
def StreamCountCases.Loaded : StreamCountCases → Prop
  | .nil => True
  | .cons value expression rest => InInt64 value ∧ expression.Loaded ∧ rest.Loaded

end

/-- `parseStreamFieldCount`: a number, a field's name, an expression, or nothing. -/
inductive StreamFieldCount.Loaded : StreamFieldCount → Prop
  | absent : Loaded {}
  | fixed {count : Nat} : (count : Int) ≤ int64Max → Loaded { fixed := some count }
  | field (name : String) : Loaded { fieldName := some name }
  | expression {expression : StreamCountExpression} :
      expression.Loaded → Loaded { expression := expression }

/-- `parseStreamFieldDefinition`; the source's offsets count from one. -/
structure StreamFieldDefinition.Loaded (field : StreamFieldDefinition) : Prop where
  name_ne : field.name ≠ ""
  offset_lt : ∀ offset ∈ field.offset, (offset : Int) < int64Max
  count_loaded : field.count.Loaded

/-- `parseStreamFrameLengthDefinition` -/
structure StreamLengthDefinition.Loaded (len : StreamLengthDefinition) : Prop where
  offset_lt : (len.offset : Int) < int64Max
  type_integer : streamValueTypeCanBeLength len.type
  extra_le : (len.extra : Int) ≤ int64Max

/-- `parseStreamFrameDefinition` -/
structure StreamFrameDefinition.Loaded (frame : StreamFrameDefinition) : Prop where
  name_ne : frame.name ≠ ""
  header_ne : frame.header ≠ []
  /-- `size`, `len` and `runtime_profile` are one of three -/
  one_mode : frame.size.isSome.toNat + frame.len.isSome.toNat + frame.runtimeProfile.toNat = 1
  size_pos : ∀ size ∈ frame.size, 0 < size ∧ (size : Int) ≤ int64Max
  len_loaded : ∀ len ∈ frame.len, len.Loaded
  fields_loaded : ∀ field ∈ frame.fields, field.Loaded
  field_names : (frame.fields.map (·.name)).Nodup

/-- `parseStreamBufferDefinition` -/
structure StreamBufferDefinition.Loaded (buffer : StreamBufferDefinition) : Prop where
  capacity_pos : 0 < buffer.capacity
  capacity_le : buffer.capacity ≤ buffer.maxCapacity
  maxCapacity_le : (buffer.maxCapacity : Int) ≤ int64Max

/-- What `parseLoadedStreamSchema` hands to the parser. -/
structure StreamSchema where
  bufferDefinition : StreamBufferDefinition
  frames : List StreamFrameDefinition
  buffer_loaded : bufferDefinition.Loaded
  frames_ne : frames ≠ []
  frame_names : (frames.map (·.name)).Nodup
  frames_loaded : ∀ frame ∈ frames, frame.Loaded

end ProtoScope.Scripting
