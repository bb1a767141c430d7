/-
The index of a record directory: which sealed volumes belong to it, and which ranges of global
record ids are taken.

Live records get ascending ids from one, imported volumes get blocks below the last imported
one, from the largest id downwards.  The global id of a record is its local id plus the base
of its volume.
-/
import ProtoScope.Storage.RecordDirectory

namespace ProtoScope.Storage

open ProtoScope.Data ProtoScope.Library

/-- A catalogued volume as it is handed out. -/
structure CatalogVolume where
  id : ℕ
  identity : String
  records : ℕ
  fromUs : Option ℤ
  toUs : Option ℤ
  sealedAtUs : ℤ
  idBase : ℤ
  schemaIds : List (ℕ × ℕ) := []
  highWater : ℤ := 0
deriving DecidableEq, Repr

namespace VolumeCatalog

/-! ### Checks -/

def checkIdentity (identity : String) : Except String Unit :=
  invalid (isIdentity identity = false) "invalid volume identity"

/-- The directory of a volume, if the owner's marker is one of the two. -/
def checkOwner (directory : Option VolumeDirectory) (identity : String) :
    Except String VolumeDirectory := do
  checkIdentity identity
  match directory with
  | none => .error "directory iterator cannot open directory"
  | some directory =>
    invalid (directory.owner ≠ some (stageMarker identity) ∧
      directory.owner ≠ some (recordMarker identity)) "volume ownership marker mismatch"
    return directory

def openDatabase (directory : VolumeDirectory) : Except String VolumeDatabase :=
  match directory.database with
  | .absent => .error "unable to open database file"
  | .created => .error "foreign volume database"
  | .holds database => .ok database

def checkVolume (database : VolumeDatabase) (protocol : Text) (identity : String) (count : ℕ) (full : Bool) :
    Except String Unit := do
  invalid (database.protocol ≠ protocol ∨ database.volumeId ≠ identity ∨
    database.state ≠ .sealed ∨ database.recordCount ≠ (count : ℤ)) "volume metadata mismatch"
  invalid (full = true ∧ database.records.length ≠ count) "volume record count mismatch"

/-- The database of a sealed volume with `count` records. -/
def openVolume (protocol : Text) (directory : Option VolumeDirectory) (identity : String)
    (count : ℕ) (full : Bool) : Except String VolumeDatabase := do
  let directory ← checkOwner directory identity
  let database ← openDatabase directory
  checkVolume database protocol identity count full
  return database

/-! ### The catalogued volumes -/

def schemaIdsOf (catalog : Catalog) (id : ℕ) : List (ℕ × ℕ) :=
  (catalog.volumeSchemas.filter fun mapping => mapping.1 == id).map fun mapping => mapping.2

def catalogVolume (catalog : Catalog) (entry : VolumeEntry) : CatalogVolume where
  id := entry.id
  identity := entry.identity
  records := entry.records
  fromUs := if entry.records = 0 then none else entry.fromUs
  toUs := if entry.records = 0 then none else entry.toUs
  sealedAtUs := entry.sealedUs
  idBase := entry.idBase
  schemaIds := schemaIdsOf catalog entry.id

def isRetiring (catalog : Catalog) (id : ℕ) : Bool :=
  catalog.retiring.any fun intent => intent.1 == id

/-- Reads the entries within the budget of metadata. -/
def readEntries (root : RecordRoot) (catalog : Catalog) :
    ℕ → List VolumeEntry → Except String (List CatalogVolume)
  | _, [] => .ok []
  | bytes, entry :: entries => do
    checkIdentity entry.identity
    let cost := root.volumeMetadataBytes + 64 * (schemaIdsOf catalog entry.id).length
    invalid (valueLimits.maxBytes.toNat < bytes + cost) "catalog volume metadata exceeds budget"
    let volumes ← readEntries root catalog (bytes + cost) entries
    return catalogVolume catalog entry :: volumes

/-- The volumes that are not being retired, by id. -/
def volumes (root : RecordRoot) (catalog : Catalog) : Except String (List CatalogVolume) :=
  readEntries root catalog 0 (catalog.volumes.filter fun entry => !isRetiring catalog entry.id)

/-! ### Retirement -/

def removeIfExists {μ : Type} (identity : String) (file : VolumeFile) : Storing μ Unit := do
  let d ← .durable
  match d.volumes identity with
  | none => return ()
  | some directory =>
    if directory.exists file then
      .write (.removeFile identity file)
    else
      return ()

/-- Checks what is left of a volume that is being retired. -/
def checkRetired (root : RecordRoot) (identity : String) (count : ℕ) (directory : VolumeDirectory) :
    Except String Unit :=
  if directory.exists .database then do
    let _ ← openVolume root.protocol (some directory) identity count true
    return ()
  else if directory.exists .owner then do
    let _ ← checkOwner (some directory) identity
    return ()
  else
    .ok ()

def removeVolume {μ : Type} (root : RecordRoot) (identity : String) (count : ℕ) :
    Storing μ Unit := do
  let d ← .durable
  match d.volumes identity with
  | none => return ()
  | some directory =>
    .ofExcept (checkRetired root identity count directory)
    removeIfExists identity .database
    removeIfExists identity .wal
    removeIfExists identity .shm
    removeIfExists identity .owner
    .write (.removeDirectory identity)

/-- The index without the volume and without the intent to retire it. -/
def withoutVolume (catalog : Catalog) (id : ℕ) (identity : String) : Catalog :=
  { catalog with
    volumeSchemas := catalog.volumeSchemas.filter fun mapping => mapping.1 != id
    volumes := catalog.volumes.filter fun entry => !(entry.id == id && entry.identity == identity)
    retiring := catalog.retiring.filter fun intent => intent.1 != id }

def finishRetirement {μ : Type} (root : RecordRoot) (id : ℕ) (identity : String) (count : ℕ) :
    Storing μ Unit := do
  .ofExcept (checkIdentity identity)
  removeVolume root identity count
  let d ← .durable
  let catalog ← .ofExcept d.catalog
  .write (.commitIndex (withoutVolume catalog id identity))

def finishRetirements {μ : Type} (root : RecordRoot) : List VolumeEntry → Storing μ Unit
  | [] => return ()
  | entry :: entries => do
    finishRetirement root entry.id entry.identity entry.records
    finishRetirements root entries

/-- The volumes with an intent to retire them. -/
def pendingRetirements (catalog : Catalog) : Except String (List VolumeEntry) := do
  let pending := catalog.volumes.filter fun entry => isRetiring catalog entry.id
  invalid (pending.any (fun entry => catalog.retiring.any fun intent =>
    intent.1 == entry.id && intent.2 != entry.identity) = true) "retirement identity mismatch"
  invalid (131072 < pending.length) "retirement metadata budget exceeded"
  return pending

def resumeRetirements {μ : Type} (root : RecordRoot) : Storing μ Unit := do
  let d ← .durable
  let catalog ← .ofExcept d.catalog
  let pending ← .ofExcept (pendingRetirements catalog)
  finishRetirements root pending

structure RetentionPolicy where
  maxBytes : ℕ := 10 * 1024 * 1024 * 1024
  maxAge : ℤ := 2592000000000
deriving Repr

structure RetentionResult where
  bytes : ℕ := 0
  removedVolumes : ℕ := 0
  capacityExceeded : Bool := false
  expiredPinned : Bool := false
deriving DecidableEq, Repr

/-- What a retention run depends on besides the directory: the volumes in use, what measuring
the directory gives, and whether it is asked to stop before the volume of an id is looked at,
or while it is checked. -/
structure RetentionRun where
  pinned : ℕ → Bool
  directoryBytes : RecordDirectory → Except String ℕ
  stopped : ℕ → Bool
  stoppedInCheck : ℕ → Bool

/-- Sealed earlier, or at the same time and catalogued earlier. -/
def sealedBefore (a b : CatalogVolume) : Bool :=
  if a.sealedAtUs ≠ b.sealedAtUs then decide (a.sealedAtUs ≤ b.sealedAtUs) else decide (a.id ≤ b.id)

def isExpired (policy : RetentionPolicy) (nowUs : ℤ) (volume : CatalogVolume) : Bool :=
  decide (0 ≤ volume.sealedAtUs) && decide (volume.sealedAtUs ≤ nowUs) &&
    decide (policy.maxAge ≤ nowUs - volume.sealedAtUs)

/-- Checks a volume, commits the intent to retire it, and retires it. -/
def retire {μ : Type} (root : RecordRoot) (run : RetentionRun) (volume : CatalogVolume) :
    Storing μ Unit := do
  let d ← .durable
  let _ ← .ofExcept (openVolume root.protocol (d.volumes volume.identity) volume.identity
    volume.records true)
  .failIf (run.stoppedInCheck volume.id = true) "record retention canceled"
  let catalog ← .ofExcept d.catalog
  .failIf (isRetiring catalog volume.id = true) "UNIQUE constraint failed: metadata.key"
  .write (.commitIndex { catalog with retiring := catalog.retiring ++ [(volume.id, volume.identity)] })
  finishRetirement root volume.id volume.identity volume.records

def retainEach {μ : Type} (root : RecordRoot) (policy : RetentionPolicy) (nowUs : ℤ)
    (run : RetentionRun) : RetentionResult → List CatalogVolume → Storing μ RetentionResult
  | result, [] => return result
  | result, volume :: volumes => do
    .failIf (run.stopped volume.id = true) "record retention canceled"
    if !isExpired policy nowUs volume && decide (result.bytes ≤ policy.maxBytes) then
      retainEach root policy nowUs run result volumes
    else if run.pinned volume.id then
      retainEach root policy nowUs run
        { result with expiredPinned := result.expiredPinned || isExpired policy nowUs volume } volumes
    else
      retire root run volume
      let d ← .durable
      let bytes ← .ofExcept (run.directoryBytes d)
      retainEach root policy nowUs run
        { result with removedVolumes := result.removedVolumes + 1, bytes := bytes } volumes

def retain {μ : Type} (root : RecordRoot) (policy : RetentionPolicy) (nowUs : ℤ)
    (run : RetentionRun) : Storing μ RetentionResult := do
  .failIf (policy.maxBytes = 0 ∨ policy.maxAge < 0 ∨ nowUs < 0)
    "invalid retention policy or time"
  resumeRetirements root
  let d ← .durable
  let catalog ← .ofExcept d.catalog
  let volumes ← .ofExcept (volumes root catalog)
  let bytes ← .ofExcept (run.directoryBytes d)
  let result ← retainEach root policy nowUs run { bytes := bytes } (volumes.mergeSort sealedBefore)
  return { result with capacityExceeded := decide (policy.maxBytes < result.bytes) }

end VolumeCatalog

end ProtoScope.Storage
