/-
The cache of the key-value store is the committed table.

A transaction either commits the statement of its command or leaves the committed table as it
was, whatever fails in it and whatever its rollback comes to; a connection that is left inside
a transaction refuses the next one.  So the cache, which is written after a commit only, has
the entries of the table after every command, and the byte count is their total.
-/
import ProtoScope.Storage.KeyValueStore

namespace ProtoScope.Storage.KeyValue

open ProtoScope.Data
open ProtoScope.Library
open ProtoScope.Storage.Store (Failure Operation)

/-! ### One transaction -/

theorem orFail_of_none {result : Database × Option Failure}
    {next : Database → Database × Option Failure} (h : (orFail result next).2 = none) :
    result.2 = none ∧ (next result.1).2 = none ∧ orFail result next = next result.1 := by
  unfold orFail at h ⊢
  split at h
  · rename_i hnone
    exact ⟨hnone, h, rfl⟩
  · cases h

/-- Steps that leave the committed table alone, one after another. -/
theorem orFail_committed {result : Database × Option Failure}
    {next : Database → Database × Option Failure}
    (h : ∀ db, (next db).1.committed = db.committed) :
    (orFail result next).1.committed = result.1.committed := by
  unfold orFail
  split
  · exact h _
  · rfl

namespace Database

variable {db after : Database} {command : Command} {outcomes : Outcomes}

@[simp] theorem call_committed (effect : Table → Table) (outcome : Option FailedCall)
    (db : Database) : (db.call effect outcome).1.committed = db.committed := by
  cases outcome with
  | none => rfl
  | some failed => rfl

variable {outcome : Option FailedCall} {failure : Failure}

theorem call_transaction {effect : Table → Table} (h : (db.call effect outcome).2 = none) :
    (db.call effect outcome).1.transaction = db.transaction.map effect := by
  cases outcome with
  | none => rfl
  | some failed => cases h

theorem commit_some (h : (db.commit outcome).2 = some failure) :
    (db.commit outcome).1.committed = db.committed := by
  unfold commit at h ⊢
  split at h
  · rfl
  · rfl
  · cases h

theorem commit_none {table : Table} (htransaction : db.transaction = some table)
    (h : (db.commit outcome).2 = none) :
    (db.commit outcome).1 = { committed := table, transaction := none } := by
  unfold commit at h ⊢
  rw [htransaction] at h ⊢
  cases outcome with
  | none => rfl
  | some failed => cases h

@[simp] theorem rollback_committed (outcome : Option Failure) (db : Database) :
    (db.rollback outcome).1.committed = db.committed := by
  unfold rollback
  split
  · rfl
  · rfl
  · rfl

theorem stepped_committed (command : Command) (outcomes : Outcomes) (db : Database) :
    (db.stepped command outcomes).1.committed = db.committed := by
  unfold stepped bound
  rw [orFail_committed (call_committed _ _)]
  split
  · rw [orFail_committed (call_committed _ _), orFail_committed (call_committed _ _), call_committed]
  · rw [orFail_committed (call_committed _ _), call_committed]

/-- A call after another, both inside the transaction. -/
theorem orFail_call_transaction {result : Database × Option Failure} {effect : Table → Table}
    (h : (orFail result (Database.call effect outcome)).2 = none) :
    result.2 = none ∧ (orFail result (Database.call effect outcome)).1.transaction =
      result.1.transaction.map effect := by
  obtain ⟨hresult, hcall, heq⟩ := orFail_of_none h
  rw [heq]
  exact ⟨hresult, call_transaction hcall⟩

theorem bound_transaction (h : (db.bound command outcomes).2 = none) :
    (db.bound command outcomes).1.transaction = db.transaction := by
  have hkey : ∀ {first second : Option FailedCall},
      (orFail (db.call id first) (Database.call id second)).2 = none →
      (orFail (db.call id first) (Database.call id second)).1.transaction = db.transaction := by
    intro first second hnone
    obtain ⟨hfirst, heq⟩ := orFail_call_transaction hnone
    rw [heq, call_transaction hfirst, Option.map_id_fun, id, id]
  unfold bound at h ⊢
  split at h
  · rename_i hset
    obtain ⟨hfirst, heq⟩ := orFail_call_transaction h
    rw [if_pos hset, heq, hkey hfirst, Option.map_id_fun, id]
  · rename_i hset
    rw [if_neg hset, hkey h]

/-- A statement that has been stepped has had its effect on the transaction. -/
theorem stepped_transaction (h : (db.stepped command outcomes).2 = none) :
    (db.stepped command outcomes).1.transaction = db.transaction.map command.apply := by
  obtain ⟨hbound, heq⟩ := orFail_call_transaction h
  unfold stepped
  rw [heq, bound_transaction hbound]

theorem execute_none {table : Table} (htransaction : db.transaction = some table)
    (h : (db.execute command outcomes).2 = none) :
    (db.execute command outcomes).1 = { committed := command.apply table, transaction := none } := by
  unfold execute at h ⊢
  obtain ⟨hstepped, hcommit, heq⟩ := orFail_of_none h
  rw [heq]
  apply commit_none _ hcommit
  rw [stepped_transaction hstepped, htransaction]
  rfl

theorem execute_some (h : (db.execute command outcomes).2 = some failure) :
    (db.execute command outcomes).1.committed = db.committed := by
  unfold execute at h ⊢
  rw [← stepped_committed command outcomes db]
  unfold orFail at h ⊢
  split at h
  · exact commit_some h
  · rfl

theorem begin_none {outcome : Option Failure} (h : (db.begin outcome).2 = none) :
    (db.begin outcome).1 = { db with transaction := some db.committed } := by
  unfold begin at h ⊢
  split at h
  · cases h
  · cases h
  · rfl

theorem begin_some {outcome : Option Failure} (h : (db.begin outcome).2 = some failure) :
    (db.begin outcome).1 = db := by
  unfold begin at h ⊢
  split at h
  · rfl
  · rfl
  · cases h

theorem executeOrRollback_none (h : (db.executeOrRollback command outcomes).2 = none) :
    (db.execute command outcomes).2 = none ∧
      (db.executeOrRollback command outcomes).1 = (db.execute command outcomes).1 := by
  unfold executeOrRollback at h ⊢
  cases hexecute : db.execute command outcomes with
  | mk executed failure =>
    rw [hexecute] at h
    cases failure with
    | none => exact ⟨rfl, rfl⟩
    | some failure =>
      dsimp only at h
      split at h
      · cases h
      · cases h

theorem executeOrRollback_some (h : (db.executeOrRollback command outcomes).2 = some failure) :
    (db.executeOrRollback command outcomes).1.committed = db.committed := by
  unfold executeOrRollback at h ⊢
  cases hexecute : db.execute command outcomes with
  | mk executed failed =>
    rw [hexecute] at h
    cases failed with
    | none => cases h
    | some failed =>
      have hsame : executed.committed = db.committed := by
        have := execute_some (congrArg Prod.snd hexecute)
        rw [hexecute] at this
        exact this
      rw [← hsame, ← rollback_committed outcomes.rollback executed]
      dsimp only
      split
      · rename_i hrollback
        rw [hrollback]
      · rename_i hrollback
        rw [hrollback]

/-- **A transaction that succeeds commits its statement.** -/
theorem write_none (h : (db.write command outcomes).2 = none) :
    (db.write command outcomes).1 =
      { committed := command.apply db.committed, transaction := none } := by
  unfold write at h ⊢
  obtain ⟨hbegin, hbody, heq⟩ := orFail_of_none h
  rw [begin_none hbegin] at hbody heq
  obtain ⟨hexecute, hsame⟩ := executeOrRollback_none hbody
  rw [heq, hsame]
  exact execute_none rfl hexecute

/-- **One that fails commits nothing**, wherever it fails. -/
theorem write_some (h : (db.write command outcomes).2 = some failure) :
    (db.write command outcomes).1.committed = db.committed := by
  unfold write at h ⊢
  unfold orFail at h ⊢
  split at h
  · rename_i hbegin
    rw [begin_none hbegin] at h ⊢
    exact executeOrRollback_some h
  · rename_i hbegin
    exact congrArg Database.committed (begin_some hbegin)

end Database

/-! ### The cache -/

theorem Cache.nodup_keys (cache : Cache) : (KeyedRows.keys cache.entries).Nodup :=
  KeyedRows.nodup_keys_of_ascending (fun _ => Std.lt_irrefl) cache.ascending

theorem Cache.insert_perm {key : Text} {cache : Cache} (value : List UInt8)
    (h : key ∉ KeyedRows.keys cache.entries) :
    (cache.insert key value).entries.Perm ((key, value) :: cache.entries) := by
  obtain ⟨entries, hemplace⟩ := KeyedRows.emplace_of_not_mem value h
  unfold Cache.insert
  split
  · rename_i hnone
    rw [hemplace] at hnone
    cases hnone
  · rename_i inserted hsome
    exact OrderedMap.emplace_perm hsome

/-- The cache has the entries of the committed table, and its byte count is their total, within
the limit. -/
structure Impl.Coherent (config : Config) (impl : Impl) : Prop where
  entries : impl.cache.entries.Perm impl.kv.committed.rows
  bytes : impl.cacheBytes = KeyedRows.total entryBytes impl.cache.entries
  limit : impl.cacheBytes ≤ config.kvTotalBytes

/-- What an operation that fails leaves as it was. -/
def Impl.SameValues (before after : Impl) : Prop :=
  after.cache = before.cache ∧ after.cacheBytes = before.cacheBytes ∧
    after.kv.committed = before.kv.committed

section Commands

variable {config : Config} {impl : Impl} {command : Command}

theorem cacheAfter_perm (h : impl.cache.entries.Perm impl.kv.committed.rows) (command : Command) :
    (impl.cacheAfter command).entries.Perm (command.apply impl.kv.committed).rows := by
  have herased := @KeyedRows.erase_perm _ _ _ command.key _ _ h
  unfold Impl.cacheAfter Command.apply
  dsimp only
  by_cases hset : command.operation = .set
  · rw [if_pos hset, if_pos hset]
    calc ((impl.cache.erase command.key).insert command.key command.value).entries
        |>.Perm ((command.key, command.value) :: KeyedRows.erase command.key impl.cache.entries) :=
          Cache.insert_perm _ (KeyedRows.not_mem_keys_erase _ _)
      _ |>.Perm ((command.key, command.value) ::
            KeyedRows.erase command.key impl.kv.committed.rows) := herased.cons _
      _ |>.Perm _ := (KeyedRows.upsert_perm impl.kv.committed.keys).symm
  · rw [if_neg hset, if_neg hset]
    exact herased

/-- **The account follows the cache**, whether the key was there or not. -/
theorem nextBytes_eq (h : impl.cacheBytes = KeyedRows.total entryBytes impl.cache.entries)
    (command : Command) :
    impl.nextBytes command = KeyedRows.total entryBytes (impl.cacheAfter command).entries := by
  have htotal := @KeyedRows.total_erase _ _ _ entryBytes command.key _ impl.cache.nodup_keys
  unfold Impl.nextBytes Impl.cacheAfter
  dsimp only
  by_cases hset : command.operation = .set
  · have hinsert := @KeyedRows.total_perm _ _ entryBytes _ _
      (@Cache.insert_perm command.key (impl.cache.erase command.key) command.value
        (KeyedRows.not_mem_keys_erase command.key impl.cache.entries))
    rw [KeyedRows.total_cons] at hinsert
    rw [if_pos hset, if_pos hset, hinsert, h, htotal]
    show _ = ((entryBytes command.key command.value +
      KeyedRows.total entryBytes (KeyedRows.erase command.key impl.cache.entries) : ℕ) : ℤ)
    omega
  · rw [if_neg hset, if_neg hset, h, htotal]
    show _ = ((KeyedRows.total entryBytes
      (KeyedRows.erase command.key impl.cache.entries) : ℕ) : ℤ)
    omega

/-- What `writeOne` does where it fails, and where it does not. -/
theorem writeOne_cases (config : Config) (command : Command) (staged : Option Failure)
    (outcomes : Outcomes) (impl : Impl) :
    (∃ failure, (writeOne config command staged outcomes impl).2 = some failure ∧
      impl.SameValues (writeOne config command staged outcomes impl).1) ∨
    ((writeOne config command staged outcomes impl).2 = none ∧
      ((command.operation ≠ .set ∧ command.operation ≠ .delete ∧
        (writeOne config command staged outcomes impl).1 = impl) ∨
      (impl.nextBytes command ≤ config.kvTotalBytes ∧
        (writeOne config command staged outcomes impl).1 =
          { impl with
            kv := { committed := command.apply impl.kv.committed, transaction := none }
            cache := impl.cacheAfter command
            cacheBytes := impl.nextBytes command }))) := by
  unfold writeOne
  split
  · cases staged with
    | some failure => exact .inl ⟨failure, rfl, rfl, rfl, rfl⟩
    | none =>
      dsimp only
      split
      · exact .inl ⟨_, rfl, rfl, rfl, rfl⟩
      · rename_i hlimit
        cases hwrite : impl.kv.write command outcomes with
        | mk kv failure =>
          cases failure with
          | some failure =>
            have hcommitted := Database.write_some (congrArg Prod.snd hwrite)
            rw [hwrite] at hcommitted
            exact .inl ⟨failure, rfl, rfl, rfl, hcommitted⟩
          | none =>
            have hcommitted := Database.write_none (congrArg Prod.snd hwrite)
            rw [hwrite] at hcommitted
            dsimp only at hcommitted
            exact .inr ⟨rfl, .inr ⟨Int.not_lt.mp hlimit, by rw [← hcommitted]⟩⟩
  · rename_i hoperation
    exact .inr ⟨rfl, .inl ⟨fun h => hoperation (.inl h), fun h => hoperation (.inr h), rfl⟩⟩

theorem writeOne_completions (config : Config) (command : Command) (staged : Option Failure)
    (outcomes : Outcomes) (impl : Impl) :
    (writeOne config command staged outcomes impl).1.completions = impl.completions := by
  unfold writeOne
  split
  · split
    · rfl
    · split
      · rfl
      · split
        · rfl
        · rfl
  · rfl

theorem Impl.Coherent.of_same {after : Impl} (h : impl.Coherent config)
    (hsame : impl.SameValues after) : after.Coherent config := by
  obtain ⟨hcache, hbytes, hcommitted⟩ := hsame
  refine ⟨?_, ?_, ?_⟩
  · rw [hcache, hcommitted]
    exact h.entries
  · rw [hbytes, hcache]
    exact h.bytes
  · rw [hbytes]
    exact h.limit

/-- **One command keeps the cache coherent.** -/
theorem Impl.Coherent.writeOne (h : impl.Coherent config) (command : Command)
    (staged : Option Failure) (outcomes : Outcomes) :
    (writeOne config command staged outcomes impl).1.Coherent config := by
  obtain ⟨_, -, hsame⟩ | ⟨-, ⟨-, -, hsame⟩ | ⟨hlimit, hafter⟩⟩ :=
    writeOne_cases config command staged outcomes impl
  · exact h.of_same hsame
  · rw [hsame]
    exact h
  · rw [hafter]
    exact ⟨cacheAfter_perm h.entries command, nextBytes_eq h.bytes command, hlimit⟩

theorem Impl.Coherent.run (h : impl.Coherent config) (turns : List Turn) :
    (impl.run config turns).Coherent config := by
  induction turns generalizing impl with
  | nil => exact h
  | cons turn turns ih =>
    apply ih
    exact (h.writeOne turn.command turn.staged turn.outcomes).of_same ⟨rfl, rfl, rfl⟩

end Commands

/-! ### The constructor -/

theorem refuse_of_ok {condition : Prop} [Decidable condition] {message : String} {u : Unit}
    (h : refuse condition message = .ok u) : ¬ condition := by
  unfold refuse at h
  split at h
  · cases h
  · assumption

theorem loadRows_coherent {config : Config} {rows done : List Entry} {cache after : Cache}
    {bytes total : ℤ} (h : loadRows config rows cache bytes = .ok (after, total))
    (hkeys : (KeyedRows.keys (done ++ rows)).Nodup) (hcache : cache.entries.Perm done)
    (hbytes : bytes = KeyedRows.total entryBytes cache.entries)
    (hlimit : bytes ≤ config.kvTotalBytes) :
    after.entries.Perm (done ++ rows) ∧ total = KeyedRows.total entryBytes after.entries ∧
      total ≤ config.kvTotalBytes := by
  induction rows generalizing done cache bytes with
  | nil =>
    cases h
    rw [List.append_nil]
    exact ⟨hcache, hbytes, hlimit⟩
  | cons row rows ih =>
    obtain ⟨name, value⟩ := row
    obtain ⟨_, -, h⟩ := bind_eq_ok.mp h
    obtain ⟨_, hrefuse, h⟩ := bind_eq_ok.mp h
    have hname : name ∉ KeyedRows.keys cache.entries := by
      intro hmem
      have hdone : name ∈ KeyedRows.keys done := (hcache.map _).mem_iff.mp hmem
      unfold KeyedRows.keys at hkeys hdone
      rw [List.map_append, List.nodup_append] at hkeys
      exact hkeys.2.2 name hdone name List.mem_cons_self rfl
    have hinsert := Cache.insert_perm value hname
    have hadded : bytes + entryBytes name value =
        KeyedRows.total entryBytes (cache.insert name value).entries := by
      have htotal := @KeyedRows.total_perm _ _ entryBytes _ _ hinsert
      rw [KeyedRows.total_cons] at htotal
      dsimp only at htotal
      rw [hbytes, htotal]
      omega
    have hnext : (cache.insert name value).entries.Perm (done ++ [(name, value)]) :=
      hinsert.trans ((hcache.cons _).trans (List.perm_append_singleton _ _).symm)
    have hall := ih h (by rw [List.append_assoc]; exact hkeys) hnext hadded
      (Int.not_lt.mp (refuse_of_ok hrefuse))
    rw [List.append_assoc] at hall
    exact hall

theorem Impl.construct_coherent {config : Config} {committed : Table} {impl : Impl}
    (h : Impl.construct config committed = .ok impl) : impl.Coherent config := by
  obtain ⟨⟨cache, bytes⟩, hload, h⟩ := bind_eq_ok.mp h
  cases h
  obtain ⟨hentries, hbytes, hlimit⟩ := @loadRows_coherent _ _ [] _ _ _ _ hload committed.keys
    (List.Perm.refl _) rfl (Int.natCast_nonneg _)
  exact ⟨hentries, hbytes, hlimit⟩

/-! ### Every run -/

/-- **Whatever fails, the cache is the committed table.**  After every sequence of commands the
cache has the entries that are committed and the byte count is their total, within the limit;
and a further command either succeeds and has committed its statement, or fails and leaves the
cache, the byte count and the committed table as they were. -/
theorem cache_coherent {config : Config} {committed : Table} {impl : Impl}
    (hopen : Impl.construct config committed = .ok impl) (turns : List Turn) :
    (impl.run config turns).Coherent config ∧
      ∀ turn, ∃ completion,
        ((impl.run config turns).turn config turn).completions =
            (impl.run config turns).completions ++ [completion] ∧
          (completion.ok = false →
            (impl.run config turns).SameValues ((impl.run config turns).turn config turn)) ∧
          (completion.ok = true →
            turn.command.operation = .set ∨ turn.command.operation = .delete →
            ((impl.run config turns).turn config turn).kv.committed =
              turn.command.apply (impl.run config turns).kv.committed) := by
  refine ⟨(Impl.construct_coherent hopen).run turns, ?_⟩
  intro turn
  generalize impl.run config turns = reached
  refine ⟨completionOf turn.command
    (writeOne config turn.command turn.staged turn.outcomes reached).2, ?_, ?_, ?_⟩
  · exact congrArg (· ++ _) (writeOne_completions ..)
  · intro hfailed
    obtain ⟨failure, -, hsame⟩ | ⟨hnone, -⟩ :=
      writeOne_cases config turn.command turn.staged turn.outcomes reached
    · exact hsame
    · rw [hnone] at hfailed
      cases hfailed
  · intro hok hoperation
    obtain ⟨failure, hsome, -⟩ | ⟨-, ⟨hset, hdelete, -⟩ | ⟨-, hafter⟩⟩ :=
      writeOne_cases config turn.command turn.staged turn.outcomes reached
    · rw [hsome] at hok
      cases hok
    · exact absurd hoperation (not_or.mpr ⟨hset, hdelete⟩)
    · exact congrArg (fun impl : Impl => impl.kv.committed) hafter

/-- A write whose commit fails, with a rollback that fails as well, is followed by one that the
connection refuses; over an empty table nothing has changed. -/
theorem cache_coherent_failed_commit :
    let failure : Failure := ⟨"database is locked", by decide⟩
    let first : Turn :=
      { command := { task := 1, operation := .set, key := [107], value := [0] }
        outcomes := { commit := some ⟨failure, false⟩, rollback := some failure } }
    let second : Turn := { command := { task := 2, operation := .delete, key := [107] } }
    (({} : Impl).run {} [first]).Coherent {} ∧
      ((({} : Impl).run {} [first]).turn {} second).completions.map (·.ok) = [false, false] ∧
      (({} : Impl).run {} [first]).SameValues ((({} : Impl).run {} [first]).turn {} second) := by
  intro failure first second
  have hopen : Impl.construct {} {} = .ok {} := rfl
  obtain ⟨hcoherent, hturns⟩ := cache_coherent hopen [first]
  obtain ⟨completion, hcompletions, hsame, -⟩ := hturns second
  have hoks : ((({} : Impl).run {} [first]).turn {} second).completions.map (·.ok) =
      [false, false] := by decide
  refine ⟨hcoherent, hoks, hsame ?_⟩
  rw [hcompletions, List.map_append] at hoks
  simpa using congrArg List.getLast? hoks

end ProtoScope.Storage.KeyValue
