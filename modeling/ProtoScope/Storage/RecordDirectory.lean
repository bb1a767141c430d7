/-
A record directory on disk: the index database, one directory for each record volume, and the
staging directories of imports.

The directory is written in atomic steps, the ones after which a crash leaves something
behind: a directory or file created, written, renamed or removed, a database transaction
committed.  Nothing else writes into it, so the checks that refuse links, unknown files,
foreign application ids and damaged pages have no counterpart, and a root that has held a
`records.sqlite` of its own is left to the migration of such roots.

Numbers and schemas the databases keep as text or encoded appear as they are read back.
-/
import ProtoScope.Data.ValueCodec
import ProtoScope.Library.CrashProgram
import Mathlib.Logic.Function.Basic

namespace ProtoScope.Storage

open ProtoScope.Data ProtoScope.Library

def valueLimits : ValueLimits := { maxBytes := 32 * 1024 * 1024, maxDepth := 16, maxNodes := 131072 }

/-- The protocol a record directory belongs to, and what its path enters into: the bytes that
the metadata of one volume takes in memory (`sizeof(CatalogVolume)`, its path, and 32). -/
structure RecordRoot where
  protocol : Text
  volumeMetadataBytes : ℕ

/-- Thirty-two lower-case hexadecimal digits. -/
def isIdentity (identity : String) : Bool :=
  identity.utf8ByteSize == 32 && identity.toList.all fun c => c.isDigit || ('a' ≤ c && c ≤ 'f')

/-! ### Databases -/

/-- A database file.  One that is `created` has no committed transaction yet. -/
inductive DatabaseFile (α : Type) where
  | absent
  | created
  | holds (content : α)

inductive VolumeOrigin where
  | recording
  | imported
deriving DecidableEq, Repr

inductive VolumeState where
  | active
  | sealed
  | staging
deriving DecidableEq, Repr

/-- A row of `records`; the other columns repeat fields of the record. -/
structure RecordRow where
  id : ℤ
  record : Record

/-- `records.sqlite` of a volume.  An imported volume has no `first_id`, `last_id` and
`opened_us`; they are only read where the origin is `recording`. -/
structure VolumeDatabase where
  protocol : Text
  volumeId : String
  origin : VolumeOrigin
  state : VolumeState
  recordCount : ℤ
  firstId : ℤ := 0
  lastId : ℤ := 0
  openedUs : ℤ := 0
  schemas : List (ℕ × Schema)
  records : List RecordRow

/-- A row of `volumes` in the index. -/
structure VolumeEntry where
  id : ℕ
  identity : String
  records : ℕ
  fromUs : Option ℤ
  toUs : Option ℤ
  sealedUs : ℤ
  idBase : ℤ
deriving DecidableEq, Repr

structure RecordSessionState where
  activeIdentity : String := ""
  pendingIdentity : String := ""
  pendingFirstId : ℤ := 0
  pendingOpenedUs : ℤ := 0
  lastCommittedId : ℤ := 0
  lastCommittedTimeUs : Option ℤ := none
deriving DecidableEq, Repr

/-- `index.sqlite`.  The keys of `schemas` are the positions from one; `retiring` has the
`retiring:` keys of `metadata` with their values. -/
structure Catalog where
  protocol : Text
  importNext : ℤ
  recordHigh : Option ℤ := none
  recordAllocated : Option ℤ := none
  recordSession : Option RecordSessionState := none
  retiring : List (ℕ × String) := []
  schemas : List Schema := []
  volumes : List VolumeEntry := []
  lastVolumeId : ℕ := 0
  volumeSchemas : List (ℕ × ℕ × ℕ) := []

/-! ### Files -/

inductive VolumeFile where
  | owner
  | database
  | wal
  | shm
deriving DecidableEq, Repr

/-- The directory of a volume: the owner's marker, the database and its two side files. -/
structure VolumeDirectory where
  owner : Option String := none
  database : DatabaseFile VolumeDatabase := .absent
  wal : Bool := false
  shm : Bool := false

def VolumeDirectory.exists (directory : VolumeDirectory) : VolumeFile → Bool
  | .owner => directory.owner.isSome
  | .database => match directory.database with
    | .absent => false
    | _ => true
  | .wal => directory.wal
  | .shm => directory.shm

def VolumeDirectory.remove (directory : VolumeDirectory) : VolumeFile → VolumeDirectory
  | .owner => { directory with owner := none }
  | .database => { directory with database := .absent }
  | .wal => { directory with wal := false }
  | .shm => { directory with shm := false }

def VolumeDirectory.isEmpty (directory : VolumeDirectory) : Bool :=
  !directory.exists .owner && !directory.exists .database && !directory.exists .wal &&
    !directory.exists .shm

structure RecordDirectory where
  index : DatabaseFile Catalog := .absent
  /-- the directories `vol-`*identity* -/
  volumes : String → Option VolumeDirectory := fun _ => none
  /-- the directories `.staging/`*identity* -/
  staging : String → Option VolumeDirectory := fun _ => none

inductive Step where
  | createIndex
  | commitIndex (catalog : Catalog)
  | createDirectory (identity : String)
  | writeOwner (identity : String) (marker : String)
  | createDatabase (identity : String)
  | commitVolume (identity : String) (database : VolumeDatabase)
  | appendRecords (identity : String) (rows : List RecordRow) (lastId recordCount : ℤ)
  | sealVolume (identity : String)
  | removeFile (identity : String) (file : VolumeFile)
  | removeDirectory (identity : String)
  | stage (identity : String) (directory : VolumeDirectory)
  | removeStagedFile (identity : String) (file : VolumeFile)
  | removeStagedDirectory (identity : String)
  | rename (identity : String)

def VolumeDirectory.updateDatabase (directory : VolumeDirectory)
    (f : VolumeDatabase → VolumeDatabase) : VolumeDirectory :=
  match directory.database with
  | .holds database => { directory with database := .holds (f database) }
  | _ => directory

namespace RecordDirectory

def updateVolume (d : RecordDirectory) (identity : String)
    (f : VolumeDirectory → VolumeDirectory) : RecordDirectory :=
  { d with volumes := Function.update d.volumes identity ((d.volumes identity).map f) }

def updateStaged (d : RecordDirectory) (identity : String)
    (f : VolumeDirectory → VolumeDirectory) : RecordDirectory :=
  { d with staging := Function.update d.staging identity ((d.staging identity).map f) }

def apply (d : RecordDirectory) : Step → RecordDirectory
  | .createIndex => { d with index := .created }
  | .commitIndex catalog => { d with index := .holds catalog }
  | .createDirectory identity => { d with volumes := Function.update d.volumes identity (some {}) }
  | .writeOwner identity marker =>
    d.updateVolume identity fun directory => { directory with owner := some marker }
  | .createDatabase identity =>
    d.updateVolume identity fun directory => { directory with database := .created }
  | .commitVolume identity database =>
    d.updateVolume identity fun directory =>
      { directory with database := .holds database, wal := true, shm := true }
  | .appendRecords identity rows lastId recordCount =>
    d.updateVolume identity fun directory =>
      directory.updateDatabase fun database =>
        { database with
          records := database.records ++ rows
          lastId := lastId
          recordCount := recordCount }
  | .sealVolume identity =>
    d.updateVolume identity fun directory =>
      directory.updateDatabase fun database => { database with state := .sealed }
  | .removeFile identity file => d.updateVolume identity fun directory => directory.remove file
  | .removeDirectory identity => { d with volumes := Function.update d.volumes identity none }
  | .stage identity directory =>
    { d with staging := Function.update d.staging identity (some directory) }
  | .removeStagedFile identity file =>
    d.updateStaged identity fun directory => directory.remove file
  | .removeStagedDirectory identity =>
    { d with staging := Function.update d.staging identity none }
  | .rename identity =>
    { d with
      volumes := Function.update d.volumes identity (d.staging identity)
      staging := Function.update d.staging identity none }

instance : Durable RecordDirectory Step where
  apply := apply

end RecordDirectory

/-- A program over a record directory, with the memory `μ`. -/
abbrev Storing (μ α : Type) : Type := Program RecordDirectory Step μ String α

/-! ### Checks that several parts make -/

def recordMarker (identity : String) : String :=
  "ProtoScope record volume v1\n" ++ identity ++ "\n"

def stageMarker (identity : String) : String :=
  "ProtoScope import stage v1\n" ++ identity ++ "\n"

/-- The content of an index; opening one that has none fails where it is first read. -/
def RecordDirectory.catalog (d : RecordDirectory) : Except String Catalog :=
  match d.index with
  | .holds catalog => .ok catalog
  | _ => .error "no such table: metadata"

/-! ### Columns of the records -/

def least (previous : Option ℤ) (value : ℤ) : Option ℤ :=
  match previous with
  | none => some value
  | some least => if value < least then some value else some least

def greatest (previous : Option ℤ) (value : ℤ) : Option ℤ :=
  match previous with
  | none => some value
  | some greatest => if greatest < value then some value else some greatest

def maxId (rows : List RecordRow) : Option ℤ := (rows.map (·.id)).foldl greatest none

/-- Gives records the ids that follow `last`. -/
def numberRecords (last : ℤ) : List Record → List RecordRow
  | [] => []
  | record :: records => { id := last + 1, record := record } :: numberRecords (last + 1) records

end ProtoScope.Storage
