/-
The configuration file and the two that replace it.

`SettingsPersistence` remembers the file as it last saw it and saves only over that.
`saveFileDialogPreferences` takes a snapshot, reads the document, changes a few keys and
writes it back.  Both write a temporary file, look at the configuration file once more and
rename.  A look at the file takes several system calls, and between any two of them another
program may do anything to the file.

The path is fixed.  What YAML makes of bytes is a parameter; a document is a tree, without
aliases.
-/
import ProtoScope.Config.ConfigLoad

namespace ProtoScope.Config

/-! ### Snapshots -/

inductive ConfigFileKind where
  | regular (contents : List UInt8)
  | unreadable
  | special
deriving DecidableEq

/-- What is at the path of the configuration. -/
inductive ConfigFile where
  | absent
  | inaccessible (error : String)
  | present (kind : ConfigFileKind) (timestampMs : ℕ)
deriving DecidableEq

structure FileSnapshot where
  timestampMs : ℕ := 0
  isThere : Bool := false
  contents : List UInt8 := []
  error : String := ""
deriving DecidableEq

/-- Where a snapshot is: each of its system calls is one observation. -/
inductive SnapshotStage where
  | existence
  | kind
  | time
  | contents (timestampMs : ℕ)
deriving DecidableEq

/-- One observation of `snapshot`: what is to be looked at next, or the snapshot. -/
def observe (file : ConfigFile) : SnapshotStage → SnapshotStage ⊕ FileSnapshot
  | .existence =>
    match file with
    | .absent => .inr {}
    | .inaccessible error => .inr { error := "检查配置快照失败: " ++ error }
    | .present _ _ => .inl .kind
  | .kind =>
    match file with
    | .present (.regular _) _ | .present .unreadable _ => .inl .time
    | _ => .inr { isThere := true, error := "配置快照不是可读取的普通文件" }
  | .time =>
    match file with
    | .present _ timestampMs => .inl (.contents timestampMs)
    | .absent => .inr { isThere := true, error := "读取配置时间失败: " }
    | .inaccessible error => .inr { isThere := true, error := "读取配置时间失败: " ++ error }
  | .contents timestampMs =>
    match file with
    | .present (.regular contents) _ => .inr { timestampMs, isThere := true, contents }
    | _ => .inr { timestampMs, isThere := true, error := "读取配置快照失败" }

def FileSnapshot.hasChanged (previous current : FileSnapshot) : Bool :=
  previous.error ≠ "" || current.error ≠ "" || current.isThere != previous.isThere ||
    current.timestampMs != previous.timestampMs || current.contents != previous.contents

/-! ### Documents -/

/-- What a YAML library makes of bytes, and of a document. -/
structure YamlText where
  load : List UInt8 → Except String YamlNode
  dump : YamlNode → List UInt8

namespace YamlNode

/-- The entries of a node that is used as a map. -/
def asEntries : YamlNode → Except String (List (String × YamlNode))
  | .null => .ok []
  | .map entries => .ok entries
  | .sequence items => .ok (items.mapIdx fun i item => (toString i, item))
  | .scalar _ => .error "operator[] call on a scalar"

def setEntry (key : String) (value : YamlNode) :
    List (String × YamlNode) → List (String × YamlNode)
  | [] => [(key, value)]
  | entry :: entries =>
    if key = entry.1 then (key, value) :: entries else entry :: setEntry key value entries

/-- `node[first][second]… = value` -/
def assign : List String → YamlNode → YamlNode → Except String YamlNode
  | [], value, _ => .ok value
  | key :: path, value, node => do
    let entries ← node.asEntries
    let child ← assign path value ((entries.lookup key).getD .null)
    return .map (setEntry key child entries)

def isMap : YamlNode → Bool
  | .map _ => true
  | _ => false

/-- The node at a path of keys. -/
def at? : List String → YamlNode → Option YamlNode
  | [], node => some node
  | key :: path, .map entries => (entries.lookup key).bind (at? path)
  | _ :: _, _ => none

end YamlNode

structure PreferencesRequest where
  preferences : GuiFileDialogConfig
  lastExport : Option DataExportConfig

/-- The keys that a preference save writes. -/
def PreferencesRequest.assignments (request : PreferencesRequest) :
    List (List String × YamlNode) :=
  [(["gui", "file_dialogs", "last_import_directory"],
      yaml request.preferences.lastImportDirectory),
    (["gui", "file_dialogs", "last_export_directory"],
      yaml request.preferences.lastExportDirectory),
    (["gui", "file_dialogs", "directories"],
      .map (request.preferences.directories.toList.map fun entry => (entry.1, yaml entry.2)))] ++
  match request.lastExport with
  | none => []
  | some lastExport =>
    [(["gui", "last_data_export", "valid"], yaml lastExport.valid),
      (["gui", "last_data_export", "content"], yaml lastExport.content),
      (["gui", "last_data_export", "format"], yaml lastExport.format),
      (["gui", "last_data_export", "wave_range"], yaml lastExport.waveRange),
      (["gui", "last_data_export", "record_range"], yaml lastExport.recordRange),
      (["gui", "last_data_export", "csv_shape"], yaml lastExport.csvShape),
      (["gui", "last_data_export", "directory"], yaml lastExport.directory)]

def assignAll (assignments : List (List String × YamlNode)) (root : YamlNode) :
    Except String YamlNode :=
  assignments.foldlM (fun root entry => YamlNode.assign entry.1 entry.2 root) root

/-- A node at a path that is there is a map. -/
def isMapIfThere (root : YamlNode) (path : List String) : Bool :=
  match root.at? path with
  | some node => node.isMap
  | none => true

section Parameters

variable (store : ConfigStore) (longDouble : LongDouble) (yamlText : YamlText)

/-- The document a preference save starts from: what the file holds, if it is there. -/
def loadPreferencesRoot : Option (List UInt8) → Except String YamlNode
  | none => .ok (.map [])
  | some contents => do
    let root ← yamlText.load contents
    if root.isMap && isMapIfThere root ["gui"] && isMapIfThere root ["gui", "file_dialogs"] then
      -- all fields must be readable: a damaged file is not written over
      let _ ← loadConfigYamlRoot longDouble root store.withDefaults
      return root
    else .error "配置结构损坏，未保存目录偏好"

/-- The bytes a preference save writes. -/
def preferencesDocument (request : PreferencesRequest) (source : Option (List UInt8)) :
    Except String (List UInt8) := do
  let root ← loadPreferencesRoot store longDouble yamlText source
  let root ← assignAll request.assignments root
  return yamlText.dump root

/-- The bytes a settings save writes. -/
def settingsDocument (config : AppConfig) : Except String (List UInt8) :=
  match buildConfigYamlRoot longDouble config store.withDefaults with
  | .ok root => .ok (yamlText.dump root)
  | .error what => .error ("保存配置失败: " ++ what)

end Parameters

def temporaryKept (temporary : String) : String := "；失败临时文件已保留 " ++ temporary

/-! ### Saving settings -/

/-- What a snapshot of the settings is taken for. -/
inductive SavePurpose where
  | construct
  | accept
  /-- the first check of `saveChecked` -/
  | check (config : AppConfig)
  /-- the check before the rename -/
  | confirm (document : List UInt8) (temporary : String)
  /-- the snapshot after the rename -/
  | remember

inductive SaveStage where
  | idle
  | observing (snapshot : SnapshotStage) (purpose : SavePurpose)
  | writing (document : List UInt8)
  | replacing (document : List UInt8) (temporary : String)

structure SettingsPersistence where
  saved : FileSnapshot := {}
  stage : SaveStage := .observing .existence .construct
  answer : Except String Unit := .ok ()
  /-- for the statements only: the contents this object has put into place -/
  own : List (List UInt8) := []
  /-- for the statements only: the content seen at the construction or at the last acceptance -/
  seen : Option (List UInt8) := none

/-- The content a snapshot shows. -/
def FileSnapshot.content (snapshot : FileSnapshot) : Option (List UInt8) :=
  if snapshot.error = "" ∧ snapshot.isThere = true then some snapshot.contents else none

namespace SettingsPersistence

def fail (persistence : SettingsPersistence) (error : String) : SettingsPersistence :=
  { persistence with stage := .idle, answer := .error error }

def observes (persistence : SettingsPersistence) (purpose : SavePurpose) : SettingsPersistence :=
  { persistence with stage := .observing .existence purpose }

def startSave (persistence : SettingsPersistence) (config : AppConfig) : SettingsPersistence :=
  if persistence.saved.error ≠ "" then persistence.fail persistence.saved.error
  else persistence.observes (.check config)

def remembered (persistence : SettingsPersistence) (current : FileSnapshot) :
    SettingsPersistence :=
  { persistence with stage := .idle, saved := current }

/-- The remembered snapshot is what the caller takes for the state of the file. -/
def accepted (persistence : SettingsPersistence) (current : FileSnapshot) : SettingsPersistence :=
  { persistence.remembered current with seen := current.content, answer := .ok () }

/-- A snapshot is complete. -/
def finish (store : ConfigStore) (longDouble : LongDouble) (yamlText : YamlText)
    (persistence : SettingsPersistence) (current : FileSnapshot) :
    SavePurpose → SettingsPersistence
  | .construct => persistence.accepted current
  | .accept =>
    if current.error ≠ "" then persistence.fail current.error else persistence.accepted current
  | .check config =>
    if persistence.saved.hasChanged current then
      persistence.fail "配置文件已被外部修改，请重新确认覆盖或重载"
    else
      match settingsDocument store longDouble yamlText config with
      | .ok document => { persistence with stage := .writing document }
      | .error error => persistence.fail error
  | .confirm document temporary =>
    if persistence.saved.hasChanged current then
      persistence.fail ("写入期间配置文件发生变化，未替换原文件" ++ temporaryKept temporary)
    else { persistence with stage := .replacing document temporary }
  | .remember =>
    { persistence.remembered current with
      answer :=
        if current.error = "" then .ok ()
        else .error ("配置已写入，但读取保存后快照失败: " ++ current.error) }

end SettingsPersistence

/-! ### Saving preferences -/

/-- What a preference save knows: the snapshot at its start, and the content its document was
read from. -/
structure PreferencesTask where
  request : PreferencesRequest
  expected : FileSnapshot
  source : Option (List UInt8) := none

inductive PreferencesStage where
  | idle
  /-- the snapshot at the start -/
  | expecting (snapshot : SnapshotStage) (request : PreferencesRequest)
  /-- `std::filesystem::exists` -/
  | locating (task : PreferencesTask)
  | loading (task : PreferencesTask)
  | writing (task : PreferencesTask) (document : List UInt8)
  /-- the check before the rename -/
  | confirming (snapshot : SnapshotStage) (task : PreferencesTask) (document : List UInt8)
      (temporary : String)
  | replacing (task : PreferencesTask) (document : List UInt8) (temporary : String)

structure PreferencesSave where
  stage : PreferencesStage := .idle
  answer : Except String Unit := .ok ()

namespace PreferencesSave

def failed (error : String) : PreferencesSave where
  answer := .error error

/-- The document is made from its source. -/
def compose (store : ConfigStore) (longDouble : LongDouble) (yamlText : YamlText)
    (task : PreferencesTask) : PreferencesSave :=
  match preferencesDocument store longDouble yamlText task.request task.source with
  | .ok document => { stage := .writing task document }
  | .error error => failed error

end PreferencesSave

/-! ### Both and the others -/

structure ConfigWorld where
  file : ConfigFile
  persistence : SettingsPersistence := {}
  preferences : PreferencesSave := {}

inductive Saver where
  | settings
  | preferences
deriving DecidableEq

/-- What happens next.  A write ends with the name of the temporary file, a rename with the time
of the file; either may fail with an error. -/
inductive ConfigEvent where
  | edit (file : ConfigFile)
  | startSave (config : AppConfig)
  | startAccept
  | startPreferences (request : PreferencesRequest)
  | look (saver : Saver)
  | write (saver : Saver) (outcome : Except String String)
  | rename (saver : Saver) (outcome : Except String ℕ)

namespace ConfigWorld

section Steps

variable (store : ConfigStore) (longDouble : LongDouble) (yamlText : YamlText)

def withPersistence (world : ConfigWorld) (persistence : SettingsPersistence) : ConfigWorld :=
  { world with persistence := persistence }

def withPreferences (world : ConfigWorld) (preferences : PreferencesSave) : ConfigWorld :=
  { world with preferences := preferences }

def lookSettings (world : ConfigWorld) : Option ConfigWorld :=
  match world.persistence.stage with
  | .observing snapshot purpose =>
    match observe world.file snapshot with
    | .inl next =>
      some (world.withPersistence { world.persistence with stage := .observing next purpose })
    | .inr current =>
      some (world.withPersistence
        (world.persistence.finish store longDouble yamlText current purpose))
  | _ => none

def lookPreferences (world : ConfigWorld) : Option ConfigWorld :=
  match world.preferences.stage with
  | .expecting snapshot request =>
    match observe world.file snapshot with
    | .inl next => some (world.withPreferences { stage := .expecting next request })
    | .inr expected =>
      some (world.withPreferences
        (if expected.error ≠ "" then .failed expected.error
          else { stage := .locating { request, expected } }))
  | .locating task =>
    match world.file with
    | .absent => some (world.withPreferences (.compose store longDouble yamlText task))
    | .inaccessible error => some (world.withPreferences (.failed error))
    | .present _ _ => some (world.withPreferences { stage := .loading task })
  | .loading task =>
    match world.file with
    | .present (.regular contents) _ =>
      some (world.withPreferences
        (.compose store longDouble yamlText { task with source := some contents }))
    | _ => some (world.withPreferences (.failed "无法读取现有配置"))
  | .confirming snapshot task document temporary =>
    match observe world.file snapshot with
    | .inl next =>
      some (world.withPreferences { stage := .confirming next task document temporary })
    | .inr current =>
      some (world.withPreferences
        (if task.expected.hasChanged current then
          .failed ("保存期间配置发生变化，未保存目录偏好" ++ temporaryKept temporary)
        else { stage := .replacing task document temporary }))
  | _ => none

def write (world : ConfigWorld) (saver : Saver) (outcome : Except String String) :
    Option ConfigWorld :=
  match saver, world.persistence.stage, world.preferences.stage with
  | .settings, .writing document, _ =>
    match outcome with
    | .ok temporary =>
      some (world.withPersistence (world.persistence.observes (.confirm document temporary)))
    | .error error => some (world.withPersistence (world.persistence.fail error))
  | .preferences, _, .writing task document =>
    match outcome with
    | .ok temporary =>
      some (world.withPreferences { stage := .confirming .existence task document temporary })
    | .error error => some (world.withPreferences (.failed error))
  | _, _, _ => none

def rename (world : ConfigWorld) (saver : Saver) (outcome : Except String ℕ) :
    Option ConfigWorld :=
  match saver, world.persistence.stage, world.preferences.stage with
  | .settings, .replacing document temporary, _ =>
    match outcome with
    | .ok timestampMs =>
      some { world with
        file := .present (.regular document) timestampMs
        persistence := { world.persistence.observes .remember with
          own := document :: world.persistence.own } }
    | .error error =>
      some (world.withPersistence (world.persistence.fail
        ("替换配置失败: " ++ error ++ temporaryKept temporary)))
  | .preferences, _, .replacing _ document temporary =>
    match outcome with
    | .ok timestampMs =>
      some { world with
        file := .present (.regular document) timestampMs
        preferences := {} }
    | .error error =>
      some (world.withPreferences
        (.failed ("替换配置失败: " ++ error ++ temporaryKept temporary)))
  | _, _, _ => none

def step (world : ConfigWorld) : ConfigEvent → Option ConfigWorld
  | .edit file => some { world with file := file }
  | .startSave config =>
    match world.persistence.stage with
    | .idle => some (world.withPersistence (world.persistence.startSave config))
    | _ => none
  | .startAccept =>
    match world.persistence.stage with
    | .idle => some (world.withPersistence (world.persistence.observes .accept))
    | _ => none
  | .startPreferences request =>
    match world.preferences.stage with
    | .idle => some (world.withPreferences { stage := .expecting .existence request })
    | _ => none
  | .look .settings => world.lookSettings store longDouble yamlText
  | .look .preferences => world.lookPreferences store longDouble yamlText
  | .write saver outcome => world.write saver outcome
  | .rename saver outcome => world.rename saver outcome

end Steps

end ConfigWorld

end ProtoScope.Config
