/-
The controls of a script and the update of their properties.

A control has a value of the kind of its type, and its descriptor says what values it may have.
`updateControlProperties` takes a map from control ids to patches: each patch is applied to a copy
of the descriptor and of the value, and the copies take the place of the host's when no patch was
refused.

A table of the script is the list of its entries in the order in which it is visited; of a number
of the script it is recorded what the binding library reads from it.
-/
import Mathlib.Data.Int.Notation
import Mathlib.Data.Nat.Notation
import Mathlib.Logic.Function.Basic
import ProtoScope.Library.OrderedMap

namespace ProtoScope.Scripting

open ProtoScope.Library

inductive ControlType where
  | button | inputText | inputInt | inputFloat | checkbox | combo | elfSymbolCombo | valueTable
  | txSequence | label | readout | indicator | progress | sliderInt | sliderFloat | radioGroup
  | textArea | tabSelection | dataTable
deriving DecidableEq, Repr

def controlValueKind : ControlType → ControlType
  | .label | .readout | .tabSelection | .dataTable | .textArea => .inputText
  | .indicator => .checkbox
  | .progress | .sliderFloat => .inputFloat
  | .sliderInt => .inputInt
  | .radioGroup => .combo
  | type => type

def isOutputControl (type : ControlType) : Bool :=
  type = .label || type = .readout || type = .indicator || type = .progress

structure ValueTableCellValue where
  value : String := ""
  set : Bool := false
deriving DecidableEq, Repr

inductive TxSequenceFieldValue where
  | integer (value : ℤ)
  | text (value : String)
deriving DecidableEq, Repr

structure TxSequenceFieldDescriptor where
  id : String
  type : ℕ
  options : List TxSequenceFieldValue
deriving DecidableEq, Repr

structure TxSequenceFrameValue where
  id : ℕ
  enabled : Bool
  name : String
  fields : List (String × TxSequenceFieldValue)
deriving DecidableEq, Repr

structure TxSequenceValue where
  intervalMs : ℤ := 100
  loop : Bool := false
  running : Bool := false
  frames : List TxSequenceFrameValue := []
deriving DecidableEq, Repr

/-- What a bound control takes from the records of a dataset. -/
structure ControlFieldBinding where
  dataset : String
  device : Option String := none
  fieldIndex : ℕ := 0
deriving DecidableEq, Repr

structure ControlDescriptor where
  type : ControlType := .button
  id : String
  label : String := ""
  visible : Bool := true
  disabled : Bool := false
  readOnly : Bool := false
  tooltip : String := ""
  minimum : Option Float := none
  maximum : Option Float := none
  textDefault : String := ""
  intDefault : ℤ := 0
  floatDefault : Float32 := 0
  boolDefault : Bool := false
  comboOptions : List String := []
  comboDefaultIndex : ℤ := 0
  /-- the number of rows of a value table -/
  valueRows : ℕ := 0
  txSequenceIntervalMs : ℤ := 100
  txSequenceLoop : Bool := false
  txSequenceFields : List TxSequenceFieldDescriptor := []
  txSequenceDefault : TxSequenceValue := {}
  precision : ℕ := 2
  indeterminate : Bool := false
  /-- in bytes, without a limit if zero -/
  maxLength : ℕ := 0
  wrap : Bool := true
  binding : Option ControlFieldBinding := none
  dataTable : Bool := false

inductive ControlValue where
  | boolean (value : Bool)
  | integer (value : ℤ)
  | float (value : Float32)
  | text (value : String)
  | elfSymbol (label value type : String)
  | valueTable (rows : List ValueTableCellValue)
  | txSequence (value : TxSequenceValue)

def ControlValue.index : ControlValue → ℕ
  | .boolean _ => 0
  | .integer _ => 1
  | .float _ => 2
  | .text _ => 3
  | .elfSymbol .. => 4
  | .valueTable _ => 5
  | .txSequence _ => 6

def defaultValueTableFor (descriptor : ControlDescriptor) : List ValueTableCellValue :=
  List.replicate descriptor.valueRows {}

def defaultTxSequenceFor (descriptor : ControlDescriptor) : TxSequenceValue :=
  { descriptor.txSequenceDefault with
    intervalMs := descriptor.txSequenceIntervalMs
    loop := descriptor.txSequenceLoop
    running := false }

def defaultValueFor (descriptor : ControlDescriptor) : ControlValue :=
  match controlValueKind descriptor.type with
  | .button => .boolean false
  | .inputText => .text descriptor.textDefault
  | .inputInt => .integer descriptor.intDefault
  | .inputFloat => .float descriptor.floatDefault
  | .checkbox => .boolean descriptor.boolDefault
  | .combo => .integer descriptor.comboDefaultIndex
  | .elfSymbolCombo => .elfSymbol "" "" ""
  | .valueTable => .valueTable (defaultValueTableFor descriptor)
  | .txSequence => .txSequence (defaultTxSequenceFor descriptor)
  | _ => .boolean false

/-! ### What values a control may have -/

/-- A text is longer than the limit or has a zero byte. -/
def textExceeds (limit : ℕ) (text : String) : Bool :=
  decide (limit < text.utf8ByteSize) || text.toList.contains (Char.ofNat 0)

def withinBounds (descriptor : ControlDescriptor) (number : Float) : Bool :=
  number.isFinite && !descriptor.minimum.any (fun minimum => number.lt minimum) &&
    !descriptor.maximum.any (fun maximum => maximum.lt number)

def validateControlValue (descriptor : ControlDescriptor) (value : ControlValue) : Bool :=
  if value.index ≠ (defaultValueFor descriptor).index then false
  else
    match value with
    | .text text =>
      if descriptor.maxLength ≠ 0 && textExceeds descriptor.maxLength text then false
      else if descriptor.type = .tabSelection then descriptor.comboOptions.contains text
      else true
    | .integer number =>
      if !withinBounds descriptor (Float.ofInt number) then false
      else if controlValueKind descriptor.type = .combo then
        if descriptor.comboOptions.isEmpty then decide (number = 0)
        else decide (0 ≤ number) && decide (number < descriptor.comboOptions.length)
      else true
    | .float number => withinBounds descriptor number.toFloat
    | _ => true

/-! ### Tables of the script -/

/-- A number of the script, by what is read from it. -/
structure LuaNumber where
  isInt : Bool
  asInt : ℤ
  isInteger : Bool
  asInt64 : ℤ
  asDouble : Float
  asFloat : Float32

inductive LuaValue where
  | nil
  | boolean (value : Bool)
  | number (value : LuaNumber)
  | string (text : String)
  | table (entries : List (LuaValue × LuaValue))
  | function
  | userdata

abbrev LuaTable := List (LuaValue × LuaValue)

def luaTypeName : LuaValue → String
  | .nil => "nil"
  | .string _ => "string"
  | .number _ => "number"
  | .boolean _ => "boolean"
  | .table _ => "table"
  | .function => "function"
  | .userdata => "unknown"

def LuaValue.isText (key : String) : LuaValue → Bool
  | .string text => decide (text = key)
  | _ => false

/-- The value under a key, `nil` if there is none. -/
def LuaTable.get (table : LuaTable) (key : String) : LuaValue :=
  ((table.find? fun entry => entry.1.isText key).map (·.2)).getD .nil

/-! ### The properties of a patch -/

def propertyNames : List String :=
  ["value", "label", "visible", "disabled", "read_only", "tooltip", "min", "max", "options",
    "max_length", "wrap", "indeterminate"]

def isPropertyName : LuaValue → Bool
  | .string name => propertyNames.contains name
  | _ => false

def checkPropertyNames (strict : Bool) (patch : LuaTable) : Except String Unit :=
  if strict && !patch.all (fun entry => isPropertyName entry.1) then
    .error "unknown control property"
  else .ok ()

def textProperty (patch : LuaTable) (key target : String) : Except String String :=
  match patch.get key with
  | .nil => .ok target
  | .string text =>
    if textExceeds 4096 text then .error "control text exceeds limit or contains NUL" else .ok text
  | _ => .error (key ++ " must be string")

def booleanProperty (patch : LuaTable) (key : String) (target : Bool) : Except String Bool :=
  match patch.get key with
  | .nil => .ok target
  | .boolean value => .ok value
  | _ => .error (key ++ " must be boolean")

def lengthProperty (patch : LuaTable) (type : ControlType) (target : ℕ) : Except String ℕ :=
  let refused : Except String ℕ :=
    .error "max_length requires a text control and 1..262144 bytes"
  match patch.get "max_length" with
  | .nil => .ok target
  | .number length =>
    if controlValueKind type ≠ .inputText || !length.isInt || decide (length.asInt < 1) ||
        decide (262144 < length.asInt) then refused
    else .ok length.asInt.toNat
  | _ => refused

/-- `std::numeric_limits<int>`. -/
def intMin : Float := Float.ofInt (-2147483648)

def intMax : Float := Float.ofInt 2147483647

def boundProperty (patch : LuaTable) (key : String) (type : ControlType)
    (target : Option Float) : Except String (Option Float) :=
  match patch.get key with
  | .nil => .ok target
  | value =>
    let kind := controlValueKind type
    if kind ≠ .inputInt && kind ≠ .inputFloat then
      .error "numeric constraints require numeric input"
    else
      match value with
      | .boolean false => .ok none
      | .number number =>
        if !number.asDouble.isFinite then .error "numeric constraint must be finite"
        else if kind = .inputInt &&
            (!number.asDouble.floor.beq number.asDouble || number.asDouble.lt intMin ||
              intMax.lt number.asDouble) then
          .error "integer constraint outside range"
        else .ok (some number.asDouble)
      | _ => .error "numeric constraint must be number"

/-- Half of the largest `float`. -/
def halfFloatMax : Float := (Float32.ofBits 0x7effffff).toFloat

/-- The checks of the bounds; those of a slider have to be there. -/
def checkBounds (type : ControlType) (minimum maximum : Option Float) : Except String Unit :=
  match minimum, maximum with
  | some minimum, some maximum =>
    if maximum.lt minimum then .error "min exceeds max"
    else if (type = .sliderInt || type = .sliderFloat) && maximum.le minimum then
      .error "slider requires min < max"
    else if type = .sliderInt &&
        (minimum.lt (Float.ofInt (-1073741824)) || (Float.ofInt 1073741823).lt maximum) then
      .error "slider_int range exceeds renderer limit"
    else if type = .sliderFloat && (minimum.lt halfFloatMax.neg || halfFloatMax.lt maximum) then
      .error "slider_float range exceeds renderer limit"
    else .ok ()
  | _, _ =>
    if type = .sliderInt || type = .sliderFloat then .error "slider requires min < max" else .ok ()

/-- The options with their numbers; the first text under a number stays. -/
def optionEntries : LuaTable → List (ℤ × String) → Except String (List (ℤ × String))
  | [], entries => .ok entries
  | (.number key, .string item) :: rest, entries =>
    if !key.isInt || decide (key.asInt < 1) || decide (1024 < key.asInt) then
      .error "invalid combo options"
    else if textExceeds 4096 item then .error "combo option exceeds limit or contains NUL"
    else optionEntries rest ((OrderedMap.emplace key.asInt item entries).getD entries)
  | _ :: _, _ => .error "invalid combo options"

def comboOptionsOf (options : LuaTable) : Except String (List String) := do
  let entries ← optionEntries options []
  if entries.getLast?.any (fun last => decide (last.1 ≠ (entries.length : ℤ))) then
    .error "sparse combo options"
  else .ok (entries.map (·.2))

/-- A declaration gives the options otherwise. -/
def optionsProperty (strict : Bool) (patch : LuaTable) (type : ControlType)
    (target : List String) : Except String (List String) :=
  if !strict then .ok target
  else
    match patch.get "options" with
    | .nil => .ok target
    | .table options =>
      if controlValueKind type ≠ .combo then .error "options require a combo string array"
      else comboOptionsOf options
    | _ => .error "options require a combo string array"

/-- `applyControlProperties`; a patch is `strict`, a declaration is not. -/
def applyControlProperties (descriptor : ControlDescriptor) (patch : LuaTable) (strict : Bool) :
    Except String ControlDescriptor := do
  checkPropertyNames strict patch
  let label ← textProperty patch "label" descriptor.label
  let tooltip ← textProperty patch "tooltip" descriptor.tooltip
  let visible ← booleanProperty patch "visible" descriptor.visible
  let disabled ← booleanProperty patch "disabled" descriptor.disabled
  let readOnly ← booleanProperty patch "read_only" descriptor.readOnly
  let wrap ← booleanProperty patch "wrap" descriptor.wrap
  let indeterminate ← booleanProperty patch "indeterminate" descriptor.indeterminate
  let maxLength ← lengthProperty patch descriptor.type descriptor.maxLength
  let minimum ← boundProperty patch "min" descriptor.type descriptor.minimum
  let maximum ← boundProperty patch "max" descriptor.type descriptor.maximum
  checkBounds descriptor.type minimum maximum
  let comboOptions ← optionsProperty strict patch descriptor.type descriptor.comboOptions
  return { descriptor with
    label := label
    tooltip := tooltip
    visible := visible
    disabled := disabled
    readOnly := readOnly
    wrap := wrap
    indeterminate := indeterminate
    maxLength := maxLength
    minimum := minimum
    maximum := maximum
    comboOptions := comboOptions }

/-! ### Values from the script -/

/-- The readers of the tables that stand for the values of two controls, and the library's fixed
format of a number. -/
structure ControlReaders where
  valueTable : ControlDescriptor → LuaValue → Except String (List ValueTableCellValue)
  txSequence : ControlDescriptor → LuaValue → Except String TxSequenceValue
  formatFixed : ℕ → Float → String

/-- The digits of an integer with as many zeros after the point. -/
def formatInteger (precision : ℕ) (number : ℤ) : String :=
  if 0 < precision then toString number ++ "." ++ "".pushn '0' precision else toString number

def formatReadout (readers : ControlReaders) (precision : ℕ) : LuaValue → Except String String
  | .string text => .ok text
  | .number number =>
    if number.isInteger then .ok (formatInteger precision number.asInt64)
    else if !number.asDouble.isFinite then .error "readout requires a finite number"
    else .ok (readers.formatFixed precision number.asDouble)
  | _ => .error "readout requires a number or display string"

/-- `static_cast<int>` of a `double`. -/
def truncated (number : Float) : ℤ := number.toInt32.toInt

def LuaNumber.toInt (number : LuaNumber) : ℤ :=
  if number.isInt then number.asInt else truncated number.asDouble

def controlValueFromLua (readers : ControlReaders) (descriptor : ControlDescriptor)
    (object : LuaValue) : Except String ControlValue :=
  let mismatch : Except String ControlValue :=
    .error ("控件 " ++ descriptor.id ++ " 类型不匹配，实际收到 " ++ luaTypeName object)
  match object with
  | .nil => .ok (defaultValueFor descriptor)
  | object =>
    if descriptor.type = .readout then
      (formatReadout readers descriptor.precision object).map .text
    else
      match controlValueKind descriptor.type, object with
      | .button, .boolean value | .checkbox, .boolean value => .ok (.boolean value)
      | .button, .number number | .checkbox, .number number =>
        .ok (.boolean (if number.isInt then number.asInt ≠ 0 else !number.asDouble.beq 0))
      | .inputText, .string text => .ok (.text text)
      | .inputInt, .number number => .ok (.integer number.toInt)
      | .inputFloat, .number number => .ok (.float number.asFloat)
      | .combo, .number number =>
        if descriptor.comboOptions.isEmpty then .ok (.integer 0)
        else .ok (.integer (max 0 (min number.toInt (descriptor.comboOptions.length - 1))))
      | .combo, _ => .error "combo 控件仅支持 number"
      | .elfSymbolCombo, .table symbol =>
        match LuaTable.get symbol "label", LuaTable.get symbol "value",
          LuaTable.get symbol "type" with
        | .string label, .string value, .string type =>
          if label = "" || value = "" || type = "" then
            .error "elf_symbol_combo 控件值必须包含 label、value、type"
          else .ok (.elfSymbol label value type)
        | _, _, _ => .error "elf_symbol_combo 控件值必须包含 label、value、type"
      | .elfSymbolCombo, _ => .error "elf_symbol_combo 控件仅支持 table 或 nil"
      | .valueTable, object => (readers.valueTable descriptor object).map .valueTable
      | .txSequence, object => (readers.txSequence descriptor object).map .txSequence
      | _, _ => mismatch

/-- The rows with those of a patch that are set. -/
def mergeRows : List ValueTableCellValue → List ValueTableCellValue → List ValueTableCellValue
  | row :: rows, change :: changes =>
    (if change.set then change else row) :: mergeRows rows changes
  | rows, _ => rows

/-! ### The update -/

/-- The controls of the host, with their values and the times of their last update, and each
dock's copy of its controls. -/
structure ControlHost where
  scriptLoaded : Bool := false
  controls : List ControlDescriptor := []
  controlValues : String → Option ControlValue := fun _ => none
  controlUpdatedAtMs : String → Option ℕ := fun _ => none
  docks : List (List ControlDescriptor) := []

def findControlDescriptor (controls : List ControlDescriptor) (id : String) :
    Option ControlDescriptor :=
  controls.find? fun control => decide (control.id = id)

/-- The first control with the id is replaced. -/
def replaceControl (id : String) (control : ControlDescriptor) :
    List ControlDescriptor → List ControlDescriptor
  | [] => []
  | other :: controls =>
    if other.id = id then control :: controls else other :: replaceControl id control controls

/-- The value of a control when the patch names one. -/
def patchedValue (readers : ControlReaders) (control : ControlDescriptor) (input : LuaValue)
    (current : Option ControlValue) : Except String ControlValue :=
  if control.binding.isSome || control.dataTable then
    .error "data-owned values cannot be patched"
  else if controlValueKind control.type = .combo || controlValueKind control.type = .inputInt then
    match input with
    | .number number =>
      if number.isInt then .ok (.integer number.asInt) else .error "control value must be integer"
    | _ => .error "control value must be integer"
  else do
    let value ← controlValueFromLua readers control input
    if control.type = .valueTable then
      match current, value with
      | some (.valueTable rows), .valueTable changes => .ok (.valueTable (mergeRows rows changes))
      | none, _ => .error "unordered_map::at"
      | _, _ => .error "bad variant access"
    else .ok value

def namedValue (readers : ControlReaders) (control : ControlDescriptor) (patch : LuaTable)
    (current : Option ControlValue) : Except String (Option ControlValue) :=
  match patch.get "value" with
  | .nil => .ok none
  | input => (patchedValue readers control input current).map some

/-- The check at the end of a round, of the value that the control has then. -/
def checkValue (control : ControlDescriptor) : Option ControlValue → Except String Unit
  | none => .error "unordered_map::at"
  | some value =>
    if validateControlValue control value then .ok ()
    else .error "control value violates constraints"

/-- What a patch makes of one control: its descriptor, and its value if the patch names one. -/
def patchControl (readers : ControlReaders) (control : ControlDescriptor) (patch : LuaTable)
    (current : Option ControlValue) :
    Except String (ControlDescriptor × Option ControlValue) := do
  let control ← applyControlProperties control patch true
  let value ← namedValue readers control patch current
  checkValue control (value.or current)
  return (control, value)

/-- The copies that the patches are applied to. -/
structure ControlCopies where
  controls : List ControlDescriptor
  values : String → Option ControlValue
  timestamps : String → Option ℕ

/-- A control with its value, if there is one to set, and the time of that, in the copies. -/
def ControlCopies.put (copies : ControlCopies) (id : String) (nowMs : ℕ)
    (patched : ControlDescriptor × Option ControlValue) : ControlCopies where
  controls := replaceControl id patched.1 copies.controls
  values := patched.2.elim copies.values fun value => Function.update copies.values id (some value)
  timestamps := patched.2.elim copies.timestamps fun _ =>
    Function.update copies.timestamps id (some nowMs)

/-- One round of the loop of `updateControlProperties`. -/
def ControlCopies.patch (readers : ControlReaders) (copies : ControlCopies) (id : String)
    (nowMs : ℕ) (patch : LuaTable) : Except String ControlCopies :=
  match findControlDescriptor copies.controls id with
  | none => .error ("unknown control: " ++ id)
  | some control =>
    (patchControl readers control patch (copies.values id)).map (copies.put id nowMs)

/-- The loop over the patches; the time is read for each control that gets a value. -/
def patchControls (readers : ControlReaders) (now : String → ℕ) :
    LuaTable → ℕ → ControlCopies → Except String ControlCopies
  | [], _, copies => .ok copies
  | (key, item) :: patches, count, copies =>
    match key, item with
    | .string id, .table patch =>
      if 4096 < count + 1 then .error "patches must map control IDs to tables"
      else do
        let copies ← copies.patch readers id (now id) patch
        patchControls readers now patches (count + 1) copies
    | _, _ => .error "patches must map control IDs to tables"

/-- A dock's copy of a control is replaced by the control of the list with its id. -/
def refreshCopy (controls : List ControlDescriptor) (copy : ControlDescriptor) :
    ControlDescriptor :=
  (findControlDescriptor controls copy.id).getD copy

def updateControlProperties (readers : ControlReaders) (now : String → ℕ) (host : ControlHost)
    (patches : LuaTable) : Except String ControlHost :=
  if !host.scriptLoaded then .error "control updates are unavailable during declaration"
  else do
    let copies ← patchControls readers now patches 0
      ⟨host.controls, host.controlValues, host.controlUpdatedAtMs⟩
    return { host with
      controls := copies.controls
      controlValues := copies.values
      controlUpdatedAtMs := copies.timestamps
      docks := host.docks.map fun dock => dock.map (refreshCopy copies.controls) }

/-- The host after the call, and whether it went through. -/
def ControlHost.update (readers : ControlReaders) (now : String → ℕ) (host : ControlHost)
    (patches : LuaTable) : ControlHost × Bool :=
  match updateControlProperties readers now host patches with
  | .ok host => (host, true)
  | .error _ => (host, false)

end ProtoScope.Scripting
