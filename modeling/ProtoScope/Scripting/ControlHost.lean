/-
What changes the values of the controls, or what they may be.

A script declares its controls when it is loaded, and the values of the script before are kept
where they fit.  After that the user edits them, the script sets them or updates their properties,
the frames of a stream fill value tables, and the records of a dataset go to the controls that are
bound to it.

Of the readers of a declaration only the last check is followed; what the stream makes of its
fields is given as the cells of a table.
-/
import ProtoScope.Scripting.ControlProperties

namespace ProtoScope.Scripting

/-! ### Loading a script -/

/-- A control as a script declares it, its properties read; the pages of a layout stand for a
control that selects one of them. -/
inductive DeclaredControl where
  | control (descriptor : ControlDescriptor)
  | tabs (id : String) (pages : List String) (defaultPage : String)

/-- `parseControlDescriptor`: the check of the default value. -/
def parseControlDescriptor (descriptor : ControlDescriptor) : Except String ControlDescriptor :=
  if validateControlValue descriptor (defaultValueFor descriptor) then .ok descriptor
  else .error "控件默认值违反约束"

/-- `requiredText`. -/
def validPageText (text : String) : Bool := text ≠ "" && !textExceeds 256 text

/-- `parseTabsLayout` and `registerNode`. -/
def parseTabs (id : String) (pages : List String) (defaultPage : String) :
    Except String ControlDescriptor :=
  if !validPageText id then .error "id requires 1..256 bytes without NUL"
  else if pages.length = 0 || 64 < pages.length then .error "tabs requires 1..64 pages"
  else if !pages.all validPageText then .error "id requires 1..256 bytes without NUL"
  else if !decide pages.Nodup then .error "duplicate page ID"
  else if !pages.contains defaultPage then .error "unknown default page ID"
  else .ok { type := .tabSelection, id := id, label := id, comboOptions := pages,
             textDefault := defaultPage, maxLength := 256 }

def DeclaredControl.parse : DeclaredControl → Except String ControlDescriptor
  | .control descriptor => parseControlDescriptor descriptor
  | .tabs id pages defaultPage => parseTabs id pages defaultPage

def parseDocks (docks : List (List DeclaredControl)) :
    Except String (List (List ControlDescriptor)) :=
  docks.mapM fun dock => dock.mapM DeclaredControl.parse

def canReuseControlValue (previous next : ControlDescriptor) (value : ControlValue) : Bool :=
  if previous.type ≠ next.type || !validateControlValue next value then false
  else
    match next.type, value with
    | .label, _ | .readout, _ | .indicator, _ | .progress, _ | .button, _ | .valueTable, _
    | .dataTable, _ => false
    | .combo, .integer index | .radioGroup, .integer index =>
      decide (0 ≤ index) && decide (index < next.comboOptions.length) &&
        decide (index < previous.comboOptions.length) &&
        decide (previous.comboOptions[index.toNat]? = next.comboOptions[index.toNat]?)
    | .inputFloat, .float number => number.isFinite
    | .txSequence, _ => decide (previous.txSequenceFields = next.txSequenceFields)
    | _, _ => true

/-- A sequence is not running in a new script. -/
def ControlValue.stopped : ControlValue → ControlValue
  | .txSequence value => .txSequence { value with running := false }
  | value => value

/-- The value of a control of a new script. -/
def ControlHost.reusedValue (host : ControlHost) (control : ControlDescriptor) : ControlValue :=
  match host.controlValues control.id, findControlDescriptor host.controls control.id with
  | some value, some previous =>
    if canReuseControlValue previous control value then value.stopped
    else (defaultValueFor control).stopped
  | _, _ => (defaultValueFor control).stopped

def ControlHost.setValue (host : ControlHost) (id : String) (value : ControlValue) : ControlHost :=
  { host with controlValues := Function.update host.controlValues id (some value) }

def commitLoadedScript (host : ControlHost) (docks : List (List ControlDescriptor)) :
    ControlHost where
  scriptLoaded := true
  controls := docks.flatten
  controlValues := docks.flatten.foldl
    (fun values control => Function.update values control.id (some (host.reusedValue control)))
    fun _ => none
  docks := docks

/-- A script that is refused leaves the host as it was. -/
def loadScript (host : ControlHost) (docks : List (List DeclaredControl)) : ControlHost :=
  match parseDocks docks with
  | .ok docks => commitLoadedScript host docks
  | .error _ => host

/-! ### Edits -/

def ensureValueTableSize (descriptor : ControlDescriptor) (rows : List ValueTableCellValue) :
    List ValueTableCellValue :=
  rows.take descriptor.valueRows ++
    List.replicate (descriptor.valueRows - rows.length) ({} : ValueTableCellValue)

def mergeValueTableValue (descriptor : ControlDescriptor) (target patch : List ValueTableCellValue) :
    List ValueTableCellValue :=
  mergeRows (ensureValueTableSize descriptor target) patch

/-- The rows of a value table, the default ones if it has no rows yet. -/
def ControlHost.currentRows (host : ControlHost) (descriptor : ControlDescriptor) :
    List ValueTableCellValue :=
  match host.controlValues descriptor.id with
  | some (.valueTable rows) => rows
  | _ => defaultValueTableFor descriptor

/-- A value goes to its control; that of a value table is a patch of some rows. -/
def ControlHost.storeValue (host : ControlHost) (descriptor : ControlDescriptor)
    (rows : List ValueTableCellValue) (value : ControlValue) : ControlHost :=
  if descriptor.type = .valueTable then
    match value with
    | .valueTable patch =>
      host.setValue descriptor.id (.valueTable (mergeValueTableValue descriptor rows patch))
    | _ => host.setValue descriptor.id (.valueTable rows)
  else host.setValue descriptor.id value

/-- An edit of the user, in a runtime that can have stopped with a fault. -/
def onControl (host : ControlHost) (runtimeGeneration : ℕ) (faulted : Bool)
    (generation : Option ℕ) (id : String) (value : ControlValue) : ControlHost :=
  if generation.any (· ≠ runtimeGeneration) || faulted then host
  else
    match findControlDescriptor host.controls id with
    | none => host
    | some descriptor =>
      if isOutputControl descriptor.type || descriptor.dataTable || !descriptor.visible ||
          descriptor.disabled || descriptor.readOnly || !validateControlValue descriptor value then
        host
      else host.storeValue descriptor (host.currentRows descriptor) value

/-- Whether a value is taken from outside of the data. -/
def takesValue (descriptor : ControlDescriptor) (value : ControlValue) : Bool :=
  !(descriptor.binding.isSome || descriptor.dataTable || !validateControlValue descriptor value)

def setControlValue (host : ControlHost) (id : String) (value : ControlValue) : ControlHost :=
  match findControlDescriptor host.controls id with
  | none => host
  | some descriptor =>
    if takesValue descriptor value then
      host.storeValue descriptor (defaultValueTableFor descriptor) value
    else host

/-- `updateControlValue`. -/
def updateControlValue (host : ControlHost) (nowMs : ℕ) (id : String) (value : ControlValue) :
    ControlHost :=
  match findControlDescriptor host.controls id with
  | none => host
  | some descriptor =>
    if takesValue descriptor value then
      ({ host with
          controlUpdatedAtMs :=
            if host.scriptLoaded then Function.update host.controlUpdatedAtMs id (some nowMs)
            else host.controlUpdatedAtMs } : ControlHost).storeValue descriptor
        (host.currentRows descriptor) value
    else host

/-- `proto.set_control`. -/
def setControl (readers : ControlReaders) (host : ControlHost) (nowMs : ℕ) (id : String)
    (object : LuaValue) : ControlHost :=
  match findControlDescriptor host.controls id with
  | none => host
  | some descriptor =>
    match controlValueFromLua readers descriptor object with
    | .error _ => host
    | .ok value => updateControlValue host nowMs id value

/-- `applyStreamValueTargets` for one target, with the cells that a frame fills. -/
def applyStreamValueTarget (host : ControlHost) (id : String) (patch : List ValueTableCellValue) :
    ControlHost :=
  match findControlDescriptor host.controls id with
  | none => host
  | some descriptor =>
    if descriptor.type ≠ .valueTable then host
    else
      host.setValue id
        (.valueTable (mergeValueTableValue descriptor (host.currentRows descriptor) patch))

/-! ### Records -/

/-- A field of a record, as far as a control can show it. -/
inductive BoundField where
  | null
  | integer (value : ℤ)
  | double (value : Float)
  | boolean (value : Bool)
  | text (value : String)
  | other

structure PublishedRecord where
  dataset : String
  device : String
  receivedAtUs : ℕ
  values : List BoundField

/-- The largest `float`. -/
def floatMax : Float := (Float32.ofBits 0x7f7fffff).toFloat

/-- `static_cast<float>`, within the range. -/
def displayNumber (number : Float) : Except String ControlValue :=
  if number.lt floatMax.neg || floatMax.lt number then .error "value exceeds display range"
  else .ok (.float number.toFloat32)

def convertField (readers : ControlReaders) (control : ControlDescriptor) (field : BoundField) :
    Except String ControlValue :=
  match control.type, field with
  | .readout, .integer value => .ok (.text (formatInteger control.precision value))
  | .readout, .double value =>
    if !value.isFinite then .error "readout requires a finite number"
    else .ok (.text (readers.formatFixed control.precision value))
  | .readout, .text value => .ok (.text value)
  | .readout, _ => .error "readout requires a number or display string"
  | .label, .text value => .ok (.text value)
  | .label, _ => .error "bad variant access"
  | .indicator, .boolean value => .ok (.boolean value)
  | .indicator, _ => .error "bad variant access"
  | _, .integer value => displayNumber (Float.ofInt value)
  | _, .double value => displayNumber value
  | _, _ => .error "bad variant access"

/-- The value that a field gives its control, if it gives one. -/
def boundValue (readers : ControlReaders) (control : ControlDescriptor) (field : BoundField) :
    Option ControlValue :=
  match field with
  | .null => none
  | field =>
    match convertField readers control field with
    | .error _ => none
    | .ok value => if validateControlValue control value then some value else none

/-- A field clears the old reading first. -/
def showField (readers : ControlReaders) (host : ControlHost) (control : ControlDescriptor)
    (field : BoundField) : ControlHost :=
  let cleared := host.setValue control.id (defaultValueFor control)
  match boundValue readers control field with
  | none => cleared
  | some value => cleared.setValue control.id value

/-- Whether a control takes a field from a record, and which. -/
def boundIndex (record : PublishedRecord) (control : ControlDescriptor) : Option ℕ :=
  match control.binding with
  | none => none
  | some binding =>
    if binding.dataset ≠ record.dataset || binding.device.any (· ≠ record.device) then none
    else some binding.fieldIndex

/-- The loop over the bound controls; a field that is not there ends it. -/
def publishTo (readers : ControlReaders) (record : PublishedRecord) :
    List ControlDescriptor → ControlHost → ControlHost
  | [], host => host
  | control :: controls, host =>
    match boundIndex record control with
    | none => publishTo readers record controls host
    | some index =>
      let stamped := { host with
        controlUpdatedAtMs := Function.update host.controlUpdatedAtMs control.id
          (some (record.receivedAtUs / 1000)) }
      match record.values[index]? with
      | none => stamped
      | some field => publishTo readers record controls (showField readers stamped control field)

def applyPublishedRecord (readers : ControlReaders) (host : ControlHost)
    (record : PublishedRecord) : ControlHost :=
  publishTo readers record host.controls host

/-! ### Runs -/

structure ScriptControls where
  host : ControlHost := {}
  runtimeGeneration : ℕ := 0

inductive ControlStep where
  | load (docks : List (List DeclaredControl))
  | reset
  | onControl (faulted : Bool) (generation : Option ℕ) (id : String) (value : ControlValue)
  | setControlValue (id : String) (value : ControlValue)
  | setControl (nowMs : ℕ) (id : String) (object : LuaValue)
  | updateProperties (now : String → ℕ) (patches : LuaTable)
  | streamTarget (id : String) (patch : List ValueTableCellValue)
  | publish (record : PublishedRecord)

namespace ScriptControls

def step (readers : ControlReaders) (system : ScriptControls) : ControlStep → ScriptControls
  | .load docks =>
    match parseDocks docks with
    | .ok _ => ⟨loadScript system.host docks, system.runtimeGeneration + 1⟩
    | .error _ => system
  | .reset => ⟨{}, system.runtimeGeneration + 1⟩
  | .onControl faulted generation id value =>
    { system with
      host := Scripting.onControl system.host system.runtimeGeneration faulted generation id value }
  | .setControlValue id value =>
    { system with host := Scripting.setControlValue system.host id value }
  | .setControl nowMs id object =>
    { system with host := Scripting.setControl readers system.host nowMs id object }
  | .updateProperties now patches =>
    { system with host := (system.host.update readers now patches).1 }
  | .streamTarget id patch =>
    { system with host := applyStreamValueTarget system.host id patch }
  | .publish record => { system with host := applyPublishedRecord readers system.host record }

def run (readers : ControlReaders) (steps : List ControlStep) : ScriptControls :=
  steps.foldl (step readers) {}

end ScriptControls

end ProtoScope.Scripting
