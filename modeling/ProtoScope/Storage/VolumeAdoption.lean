/-
How an import comes into the index: it is moved out of the staging directory and gets the
block of global ids below the last one.
-/
import ProtoScope.Storage.VolumeCatalog

namespace ProtoScope.Storage

open ProtoScope.Data ProtoScope.Library

namespace VolumeCatalog

/-! ### Schemas -/

/-- Registers a definition unless the index has it; the result is its global id. -/
def registerSchema (schemas : List Schema) (schema : Schema) : List Schema × ℕ :=
  match schemas.idxOf? schema with
  | some index => (schemas, index + 1)
  | none => (schemas ++ [schema], schemas.length + 1)

def registerEach : List Schema → List (ℕ × Schema) → List Schema × List (ℕ × ℕ)
  | schemas, [] => (schemas, [])
  | schemas, (localId, schema) :: rest =>
    let (schemas, globalId) := registerSchema schemas schema
    let (schemas, ids) := registerEach schemas rest
    (schemas, (localId, globalId) :: ids)

/-- The index with the entry, its schemas and their ids added. -/
def insertVolume (catalog : Catalog) (entry : VolumeEntry) (schemas : List (ℕ × Schema)) :
    Except String Catalog := do
  invalid (catalog.volumes.any (fun other => other.identity == entry.identity) = true)
    "UNIQUE constraint failed: volumes.identity"
  let (registered, ids) := registerEach catalog.schemas schemas
  return { catalog with
    schemas := registered
    volumes := catalog.volumes ++ [entry]
    lastVolumeId := entry.id
    volumeSchemas := catalog.volumeSchemas ++ ids.map fun mapping => (entry.id, mapping) }

/-- A volume as the function that put it into the index hands it out. -/
def registeredVolume (catalog : Catalog) (entry : VolumeEntry) (highWater : ℤ) : CatalogVolume where
  id := entry.id
  identity := entry.identity
  records := entry.records
  fromUs := entry.fromUs
  toUs := entry.toUs
  sealedAtUs := entry.sealedUs
  idBase := entry.idBase
  schemaIds := schemaIdsOf catalog entry.id
  highWater := highWater

/-! ### Pinned volumes -/

def readHighWater (root : RecordRoot) (d : RecordDirectory) :
    List CatalogVolume → Except String (List CatalogVolume)
  | [] => .ok []
  | volume :: rest => do
    let database ←
      openVolume root.protocol (d.volumes volume.identity) volume.identity volume.records false
    let volumes ← readHighWater root d rest
    return { volume with highWater := (maxId database.records).getD 0 } :: volumes

def pinAll (root : RecordRoot) (d : RecordDirectory) : Except String (List CatalogVolume) := do
  let catalog ← d.catalog
  let volumes ← volumes root catalog
  readHighWater root d volumes

end VolumeCatalog

/-! ### Imports -/

/-- A complete import in the staging directory. -/
structure StagedRecordImport where
  identity : String
  records : ℕ
  fromUs : Option ℤ
  toUs : Option ℤ
deriving DecidableEq, Repr

/-- What is in the staging directory of a complete import. -/
def stagedDirectory (protocol : Text) (identity : String) (schemas : List (ℕ × Schema))
    (records : List Record) : VolumeDirectory where
  owner := some (stageMarker identity)
  database := .holds
    { protocol := protocol
      volumeId := identity
      origin := .imported
      state := .sealed
      recordCount := records.length
      schemas := schemas
      records := numberRecords 0 records }

namespace StagedRecordImport

def removeStagedIfExists {μ : Type} (identity : String) (file : VolumeFile) : Storing μ Unit := do
  let d ← .durable
  match d.staging identity with
  | none => return ()
  | some directory =>
    if directory.exists file then
      .write (.removeStagedFile identity file)
    else
      return ()

end StagedRecordImport

namespace VolumeCatalog

/-- The points at which `adopt` looks whether it is asked to stop. -/
inductive AdoptCheck where
  | start
  | schema (localId : ℕ)
  | beforeMove
  | afterMove
deriving DecidableEq, Repr

def checkDefinitions (stopped : AdoptCheck → Bool) : List (ℕ × Schema) → Except String Unit
  | [] => .ok ()
  | (localId, schema) :: schemas => do
    invalid (stopped (.schema localId) = true) "record import canceled"
    validateSchema schema
    checkDefinitions stopped schemas

def importEntry (catalog : Catalog) (staged : StagedRecordImport) (sealedAtUs base : ℤ) :
    VolumeEntry where
  id := catalog.lastVolumeId + 1
  identity := staged.identity
  records := staged.records
  fromUs := staged.fromUs
  toUs := staged.toUs
  sealedUs := sealedAtUs
  idBase := base

/-- The index with an import in it. -/
def withImport (catalog : Catalog) (staged : StagedRecordImport) (database : VolumeDatabase)
    (sealedAtUs : ℤ) (stopped : AdoptCheck → Bool) : Except String Catalog := do
  let next := catalog.importNext
  invalid (next < 0 ∨ next < (staged.records : ℤ)) "import record ID space exhausted"
  let base := next - staged.records
  invalid (catalog.recordHigh.any (fun high => decide (base < high)) = true)
    "import record IDs collide with sealed recordings"
  invalid (catalog.recordAllocated.any (fun high => decide (base < high)) = true)
    "import record IDs collide with reserved live range"
  let catalog ← insertVolume { catalog with importNext := base }
    (importEntry catalog staged sealedAtUs base) database.schemas
  checkDefinitions stopped database.schemas
  return catalog

/-- `rename` onto a directory fails unless that one is empty. -/
def checkDestination (destination : Option VolumeDirectory) : Except String Unit :=
  invalid (destination.any (fun directory => !directory.isEmpty) = true) "Directory not empty"

/-- `adopt` up to the move of the directory: the index it is then to commit, and the volume. -/
def prepareAdoption {μ : Type} (root : RecordRoot) (staged : StagedRecordImport) (sealedAtUs : ℤ)
    (stopped : AdoptCheck → Bool) : Storing μ (Catalog × CatalogVolume) := do
  .failIf (stopped .start = true) "record import canceled"
  let d ← .durable
  let database ← .ofExcept (openVolume root.protocol (d.staging staged.identity) staged.identity
    staged.records true)
  let catalog ← .ofExcept d.catalog
  let next ← .ofExcept (withImport catalog staged database sealedAtUs stopped)
  .failIf (stopped .beforeMove = true) "record import canceled"
  .ofExcept (checkDestination (d.volumes staged.identity))
  .write (.rename staged.identity)
  return (next, registeredVolume next (importEntry catalog staged sealedAtUs next.importNext)
    staged.records)

end VolumeCatalog

end ProtoScope.Storage
