/-
An import of records, with every point where it can fail.

`stageRecordImport` takes the staging as one step, which is how the rest of a record directory
sees it.  Here the records are committed in batches, and what the stop token, a limit, the file
system, the database or the progress callback can refuse is an attempt.  Which attempts are
refused is given in advance.
-/
import ProtoScope.Storage.VolumeAdoption

namespace ProtoScope.Storage.RecordImport

open ProtoScope.Data ProtoScope.Library

/-- Which attempts are refused, in their order, and with which error. -/
structure Refusals where
  refused : ℕ → Option String
  next : ℕ := 0

def attempt : Storing Refusals Unit := fun run _ =>
  ⟨[], { run with next := run.next + 1 },
    match run.refused run.next with
    | none => .ok ()
    | some error => .error error⟩

/-- An attempt whose refusal is ignored. -/
def permitted : Storing Refusals Bool := fun run _ =>
  ⟨[], { run with next := run.next + 1 }, .ok (run.refused run.next).isNone⟩

/-- What the calls of a reader give, for each of the three formats: the schemas, and the records
up to the end of the source or up to its first error. -/
structure ImportSource where
  schemas : List (ℕ × Schema)
  records : List Record
  error : Option String := none

structure ImportLimits where
  sourceBytes : ℕ
  stagedBytes : ℕ

/-! ### The destructor -/

def directoryOf (moved : Bool) (d : RecordDirectory) (identity : String) : Option VolumeDirectory :=
  if moved then d.volumes identity else d.staging identity

/-- `remove` of one file; one that cannot be removed stays. -/
def discardFile (moved : Bool) (identity : String) (file : VolumeFile) : Storing Refusals Unit := do
  let allowed ← permitted
  if allowed = true then
    if moved then VolumeCatalog.removeIfExists identity file
    else StagedRecordImport.removeStagedIfExists identity file
  else return ()

/-- `remove` of the directory, which only an empty one is. -/
def discardDirectory (moved : Bool) (identity : String) : Storing Refusals Unit := do
  let allowed ← permitted
  let d ← .durable
  if allowed = true ∧ (directoryOf moved d identity).any VolumeDirectory.isEmpty = true then
    .write (if moved then .removeDirectory identity else .removeStagedDirectory identity)
  else return ()

/-- What the destructor of an import does in the staging directory, or where that was moved to. -/
def discard (moved : Bool) (identity : String) : Storing Refusals Unit := do
  let allowed ← permitted
  let d ← .durable
  if allowed = true ∧
      (directoryOf moved d identity).bind (·.owner) = some (stageMarker identity) then do
    discardFile moved identity .database
    discardFile moved identity .wal
    discardFile moved identity .shm
    discardFile moved identity .owner
    discardDirectory moved identity
  else return ()

/-! ### Staging -/

/-- Takes the first identity that has no staging directory. -/
def reserveStaging : List String → Storing Refusals String
  | [] => .throw "cannot reserve import staging directory"
  | identity :: identities => do
    attempt
    let d ← .durable
    if (d.staging identity).isSome = true then reserveStaging identities
    else do
      .write (.stage identity {})
      return identity

def encodeSchemas : List (ℕ × Schema) → Except String Unit
  | [] => .ok ()
  | (_, schema) :: schemas => do
    let _ ← encodeValue (← schemaValue schema) valueLimits
    encodeSchemas schemas

/-- The database of an import that is being staged; it has no `record_count` yet. -/
def stagingDatabase (protocol : Text) (identity : String) (schemas : List (ℕ × Schema))
    (records : List Record) : VolumeDatabase where
  protocol := protocol
  volumeId := identity
  origin := .imported
  state := .staging
  recordCount := 0
  schemas := schemas
  records := numberRecords 0 records

/-- The staging directory while its database is open. -/
def openStage (identity : String) (database : VolumeDatabase) : VolumeDirectory where
  owner := some (stageMarker identity)
  database := .holds database
  wal := true
  shm := true

def received (info : StagedRecordImport)
    (record : Record) : StagedRecordImport :=
  { info with
    records := info.records + 1
    fromUs := least info.fromUs record.receivedAtUs.toInt
    toUs := greatest info.toUs record.receivedAtUs.toInt }

/-- A transaction ends after 1000 records, after 32 MiB, or when it is 100 ms old. -/
def batchFull (rows bytes : ℕ) (late : Bool) : Bool :=
  decide (1000 ≤ rows) || decide (32 * 1024 * 1024 ≤ bytes) || late

def commitBatch (full : Bool) (identity : String) (database : VolumeDatabase) :
    Storing Refusals Unit :=
  if full = true then do
    attempt
    .write (.stage identity (openStage identity database))
  else return ()

/-- The reading loop, after the records `inserted`, with an open transaction of `rows` records.
`late` says after which of the records the transaction is 100 ms old. -/
def insertRecords (protocol : Text) (identity : String) (schemas : List (ℕ × Schema))
    (late : ℕ → Bool) : StagedRecordImport → List Record → ℕ → ℕ → List Record →
      Storing Refusals StagedRecordImport
  | info, _, _, _, [] => return info
  | info, inserted, rows, bytes, record :: records => do
    -- the stop token, and the position in the source
    attempt
    attempt
    .failIf (int64Max ≤ (info.records : ℤ)) "import row count overflow"
    let value ← .ofExcept (recordValue record)
    let payload ← .ofExcept (encodeValue value valueLimits)
    attempt
    let full := batchFull (rows + 1) (bytes + payload.length) (late (info.records + 1))
    commitBatch full identity (stagingDatabase protocol identity schemas (inserted ++ [record]))
    -- the size of the files, and the progress callback
    attempt
    attempt
    insertRecords protocol identity schemas late (received info record) (inserted ++ [record])
      (if full then 0 else rows + 1) (if full then 0 else bytes + payload.length) records

/-- What is done in a new staging directory. -/
def fillStaging (protocol : Text) (source : ImportSource) (late : ℕ → Bool) (identity : String) :
    Storing Refusals StagedRecordImport := do
  attempt
  .write (.stage identity { owner := some "" })
  attempt
  .write (.stage identity { owner := some (stageMarker identity) })
  attempt
  .write (.stage identity { owner := some (stageMarker identity), database := .created })
  -- the tables and the metadata, then the schemas
  attempt
  .write (.stage identity (openStage identity (stagingDatabase protocol identity [] [])))
  .ofExcept (encodeSchemas source.schemas)
  attempt
  .write (.stage identity
    (openStage identity (stagingDatabase protocol identity source.schemas [])))
  attempt
  let info ← insertRecords protocol identity source.schemas late
    { identity := identity, records := 0, fromUs := none, toUs := none } [] 0 0 source.records
  .ofExcept (match source.error with | none => .ok () | some error => .error error)
  attempt
  attempt
  -- only the last transaction seals the database
  attempt
  .write (.stage identity (openStage identity
    { stagingDatabase protocol identity source.schemas source.records with
      state := .sealed
      recordCount := info.records }))
  attempt
  .write (.stage identity (stagedDirectory protocol identity source.schemas source.records))
  attempt
  attempt
  return info

/-- `stageRecordImport`, with the eight identities it may try. -/
def stageRecordImport (root : RecordRoot) (limits : ImportLimits)
    (source : Except String ImportSource) (identities : ℕ → String) (late : ℕ → Bool) :
    Storing Refusals StagedRecordImport := do
  attempt
  .failIf (root.protocol.isEmpty ∨ 4096 < root.protocol.length ∨ limits.sourceBytes = 0 ∨
    limits.stagedBytes = 0) "invalid import configuration"
  attempt
  let source ← .ofExcept source
  attempt
  let identity ← reserveStaging ((List.range 8).map identities)
  (fillStaging root.protocol source late identity).onError (discard false identity)

/-! ### Adopting -/

/-- Until the directory has been moved.  What the databases refuse undoes their transactions, so
it may as well be refused at the start. -/
def moveStaged (root : RecordRoot) (staged : StagedRecordImport) (sealedAtUs : ℤ)
    (stopped : VolumeCatalog.AdoptCheck → Bool) : Storing Refusals (Catalog × CatalogVolume) := do
  attempt
  VolumeCatalog.prepareAdoption root staged sealedAtUs stopped

/-- `VolumeCatalog::adopt`, followed by the destructor of the import where it fails. -/
def adopt (root : RecordRoot) (staged : StagedRecordImport) (sealedAtUs : ℤ)
    (stopped : VolumeCatalog.AdoptCheck → Bool) : Storing Refusals CatalogVolume := do
  let (next, registered) ← (moveStaged root staged sealedAtUs stopped).onError
    (discard false staged.identity)
  -- the stop token, and the commit of the index
  (do
    Program.failIf (stopped .afterMove = true) "record import canceled"
    attempt).onError (discard true staged.identity)
  .write (.commitIndex next)
  return registered

/-- A whole import. -/
def importRecords (root : RecordRoot) (limits : ImportLimits) (source : Except String ImportSource)
    (identities : ℕ → String) (late : ℕ → Bool) (sealedAtUs : ℤ)
    (stopped : VolumeCatalog.AdoptCheck → Bool) : Storing Refusals CatalogVolume := do
  let staged ← stageRecordImport root limits source identities late
  adopt root staged sealedAtUs stopped

end ProtoScope.Storage.RecordImport
