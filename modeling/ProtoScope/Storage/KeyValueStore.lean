/-
The key-value store of a protocol: the table in the database and the cache in front of it.

The writer executes one command after another, each `set` or `delete` in a transaction of its
own; what every call of the database comes to is given from outside.  A statement or a commit
that fails may have ended the transaction, and so may not.  The cache is written once the
transaction is committed, and it is all that `get` reads.

The queue of commands and what the other commands do are modelled with the store; a store that
another process takes over between `suspend` and `resume` is left out.
-/
import ProtoScope.Data.ValueCodec
import ProtoScope.Library.KeyedRows
import ProtoScope.Storage.Store

namespace ProtoScope.Storage.KeyValue

open ProtoScope.Data
open ProtoScope.Library
open ProtoScope.Storage.Store (Failure Operation)

structure Config where
  kvValueBytes : UInt64 := 256 * 1024
  kvTotalBytes : ℕ := 8 * 1024 * 1024
  kvDepth : UInt64 := 16

def Config.valueLimits (config : Config) : ValueLimits :=
  { maxBytes := config.kvValueBytes, maxDepth := config.kvDepth }

abbrev Entry := Text × List UInt8

/-! ### The database -/

/-- `values_store`, whose key is its primary key. -/
structure Table where
  rows : List Entry := []
  keys : (KeyedRows.keys rows).Nodup := by decide

def Table.upsert (key : Text) (value : List UInt8) (table : Table) : Table where
  rows := KeyedRows.upsert key value table.rows
  keys := KeyedRows.nodup_keys_upsert table.keys

def Table.delete (key : Text) (table : Table) : Table where
  rows := KeyedRows.erase key table.rows
  keys := List.Sublist.nodup (KeyedRows.keys_erase_sublist key table.rows) table.keys

/-- The connection of the writer: what is committed, and what its open transaction holds. -/
structure Database where
  committed : Table := {}
  transaction : Option Table := none

/-- A call that fails, and whether the database has then ended the transaction by itself. -/
structure FailedCall where
  failure : Failure
  rolledBack : Bool

/-- What the calls of one transaction come to. -/
structure Outcomes where
  begin : Option Failure := none
  prepare : Option FailedCall := none
  bindKey : Option FailedCall := none
  bindValue : Option FailedCall := none
  row : Option FailedCall := none
  commit : Option FailedCall := none
  rollback : Option Failure := none

/-- What is done, unless something before it has failed. -/
def orFail (result : Database × Option Failure) (next : Database → Database × Option Failure) :
    Database × Option Failure :=
  match result.2 with
  | none => next result.1
  | some failure => (result.1, some failure)

namespace Database

/-- A call inside the transaction; `effect` is what it does to it. -/
def call (effect : Table → Table) (outcome : Option FailedCall) (db : Database) :
    Database × Option Failure :=
  match outcome with
  | none => ({ db with transaction := db.transaction.map effect }, none)
  | some failed =>
    ({ db with transaction := if failed.rolledBack then none else db.transaction },
      some failed.failure)

/-- `BEGIN IMMEDIATE` -/
def begin (outcome : Option Failure) (db : Database) : Database × Option Failure :=
  match outcome, db.transaction with
  | some failure, _ => (db, some failure)
  | none, some _ =>
    (db, some ⟨"cannot start a transaction within a transaction", by decide⟩)
  | none, none => ({ db with transaction := some db.committed }, none)

/-- `COMMIT` -/
def commit (outcome : Option FailedCall) (db : Database) : Database × Option Failure :=
  match outcome, db.transaction with
  | some failed, _ =>
    ({ db with transaction := if failed.rolledBack then none else db.transaction },
      some failed.failure)
  | none, none => (db, some ⟨"cannot commit - no transaction is active", by decide⟩)
  | none, some table => ({ committed := table, transaction := none }, none)

/-- `ROLLBACK` -/
def rollback (outcome : Option Failure) (db : Database) : Database × Option Failure :=
  match outcome, db.transaction with
  | some failure, _ => (db, some failure)
  | none, none => (db, some ⟨"cannot rollback - no transaction is active", by decide⟩)
  | none, some _ => ({ db with transaction := none }, none)

end Database

/-! ### Commands -/

structure Command where
  task : ℕ := 0
  operation : Operation
  key : Text := []
  value : List UInt8 := []

/-- `Store::set`, as far as the command. -/
def set (config : Config) (key : Text) (value : Value) : Except String Command := do
  invalid (key.isEmpty ∨ 4096 < key.length) "KV 键长度必须为 1 到 4096 字节"
  let encoded ← encodeValue value config.valueLimits
  return { operation := .set, key, value := encoded }

/-- `Store::erase`, as far as the command. -/
def erase (key : Text) : Except String Command := do
  invalid (key.isEmpty ∨ 4096 < key.length) "KV 键长度必须为 1 到 4096 字节"
  return { operation := .delete, key }

/-- The statement of a command, by what it does to the table. -/
def Command.apply (command : Command) (table : Table) : Table :=
  if command.operation = .set then table.upsert command.key command.value
  else table.delete command.key

/-- The statement once its arguments are bound. -/
def Database.bound (command : Command) (outcomes : Outcomes) (db : Database) :
    Database × Option Failure :=
  if command.operation = .set then
    orFail (orFail (db.call id outcomes.prepare) (Database.call id outcomes.bindKey))
      (Database.call id outcomes.bindValue)
  else orFail (db.call id outcomes.prepare) (Database.call id outcomes.bindKey)

def Database.stepped (command : Command) (outcomes : Outcomes) (db : Database) :
    Database × Option Failure :=
  orFail (db.bound command outcomes) (Database.call command.apply outcomes.row)

/-- The statement and its commit. -/
def Database.execute (command : Command) (outcomes : Outcomes) (db : Database) :
    Database × Option Failure :=
  orFail (db.stepped command outcomes) (Database.commit outcomes.commit)

/-- The rollback of a statement that fails; one that fails itself hides what made it
necessary. -/
def Database.executeOrRollback (command : Command) (outcomes : Outcomes) (db : Database) :
    Database × Option Failure :=
  match db.execute command outcomes with
  | (db, none) => (db, none)
  | (db, some failure) =>
    match db.rollback outcomes.rollback with
    | (db, none) => (db, some failure)
    | (db, some failure) => (db, some failure)

/-- One transaction. -/
def Database.write (command : Command) (outcomes : Outcomes) (db : Database) :
    Database × Option Failure :=
  orFail (db.begin outcomes.begin) (Database.executeOrRollback command outcomes)

/-! ### The cache -/

/-- `std::map<std::string, data::Bytes>` -/
structure Cache where
  entries : List Entry := []
  ascending : OrderedMap.Ascending entries := by decide

def Cache.find (key : Text) (cache : Cache) : Option (List UInt8) :=
  KeyedRows.find key cache.entries

def Cache.erase (key : Text) (cache : Cache) : Cache where
  entries := KeyedRows.erase key cache.entries
  ascending := KeyedRows.erase_ascending key cache.ascending

/-- `emplace` and `insert`, which keep an entry that is there. -/
def Cache.insert (key : Text) (value : List UInt8) (cache : Cache) : Cache :=
  match h : OrderedMap.emplace key value cache.entries with
  | none => cache
  | some entries => ⟨entries, OrderedMap.emplace_ascending cache.ascending h⟩

/-- The bytes an entry counts for. -/
def entryBytes (key : Text) (value : List UInt8) : ℕ := key.length + value.length

structure Impl where
  cache : Cache := {}
  cacheBytes : ℤ := 0
  kv : Database := {}
  completions : List Store.Completion := []

/-- Reads the table into the cache. -/
def loadRows (config : Config) : List Entry → Cache → ℤ → Except Fault (Cache × ℤ)
  | [], cache, cacheBytes => .ok (cache, cacheBytes)
  | (name, bytes) :: rows, cache, cacheBytes => do
    let _ ← decodeValue bytes config.valueLimits
    refuse (config.kvTotalBytes < cacheBytes + entryBytes name bytes)
      "已提交 KV 数据超过协议总量上限"
    loadRows config rows (cache.insert name bytes) (cacheBytes + entryBytes name bytes)

/-- The constructor, over what an earlier process has committed. -/
def Impl.construct (config : Config) (committed : Table) : Except Fault Impl := do
  let (cache, cacheBytes) ← loadRows config committed.rows {} 0
  return { cache, cacheBytes, kv := { committed } }

/-- `Store::get`; a value that cannot be decoded is thrown. -/
def Impl.get (config : Config) (key : Text) (impl : Impl) : Except Fault (Option Value) :=
  match impl.cache.find key with
  | none => .ok none
  | some bytes => some <$> decodeValue bytes config.valueLimits

/-- The size of the cache after a command. -/
def Impl.nextBytes (command : Command) (impl : Impl) : ℤ :=
  let oldSize := KeyedRows.sizeOf entryBytes command.key impl.cache.entries
  let added := if command.operation = .set then entryBytes command.key command.value else 0
  impl.cacheBytes - oldSize + added

/-- The cache after a command whose transaction is committed. -/
def Impl.cacheAfter (command : Command) (impl : Impl) : Cache :=
  let erased := impl.cache.erase command.key
  if command.operation = .set then erased.insert command.key command.value else erased

/-- `writeOne`; `staged` is whether the entry of the cache can be allocated. -/
def writeOne (config : Config) (command : Command) (staged : Option Failure)
    (outcomes : Outcomes) (impl : Impl) : Impl × Option Failure :=
  if command.operation = .set ∨ command.operation = .delete then
    match staged with
    | some failure => (impl, some failure)
    | none =>
      if config.kvTotalBytes < impl.nextBytes command then
        (impl, some ⟨"KV 超过协议总量上限", by decide⟩)
      else
        match impl.kv.write command outcomes with
        | (kv, some failure) => ({ impl with kv }, some failure)
        | (kv, none) =>
          -- the cache shows only what is committed
          ({ impl with
              kv
              cache := impl.cacheAfter command
              cacheBytes := impl.nextBytes command }, none)
  else (impl, none)

/-- A command with what its calls come to. -/
structure Turn where
  command : Command
  staged : Option Failure := none
  outcomes : Outcomes := {}

def completionOf (command : Command) (failure : Option Failure) :
    Store.Completion where
  task := command.task
  operation := command.operation
  ok := failure.isNone
  error := (failure.map (·.message)).getD ""

def settle (command : Command) (written : Impl × Option Failure) : Impl :=
  { written.1 with completions := written.1.completions ++ [completionOf command written.2] }

/-- One turn of `writeLoop` over a command that is no publication. -/
def Impl.turn (config : Config) (impl : Impl) (turn : Turn) : Impl :=
  settle turn.command (writeOne config turn.command turn.staged turn.outcomes impl)

def Impl.run (config : Config) (impl : Impl) (turns : List Turn) : Impl :=
  turns.foldl (Impl.turn config) impl

end ProtoScope.Storage.KeyValue
