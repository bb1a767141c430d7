/-
What a script reads from the key-value store is a map of values, across restarts as well.

The committed rows hold encodings that decode under the limits of the store, so a value that
was set is the value that is read.  The cache finds what the table finds, because both have the
same rows, and the table is what the next process reads: its rows decode and their total is
within the limit, so the store opens.
-/
import ProtoScope.Proofs.Data.ValueCodec
import ProtoScope.Proofs.Storage.CacheCoherence

namespace ProtoScope.Storage.KeyValue

open ProtoScope.Data
open ProtoScope.Library
open ProtoScope.Storage.Store (Failure Operation)
open KeyedRows

/-! ### Requests and restarts -/

/-- A call of a script; the objects of a value are in order as any `std::map` is. -/
inductive Request where
  | set (key : Text) (value : { value : Value // value.Ordered })
  | erase (key : Text)

def Request.command (config : Config) : Request → Except String Command
  | .set key value => KeyValue.set config key value.1
  | .erase key => KeyValue.erase key

inductive Event where
  | request (request : Request) (staged : Option Failure) (outcomes : Outcomes)
  | restart

/-- What an event leaves, and whether it was answered with success. -/
def Impl.happen (config : Config) (impl : Impl) : Event → Except Fault (Impl × Bool)
  | .request request staged outcomes =>
    match request.command config with
    | .error _ => .ok (impl, false)
    | .ok command =>
      let written := writeOne config command staged outcomes impl
      .ok (settle command written, (completionOf command written.2).ok)
  | .restart => (·, true) <$> Impl.construct config impl.kv.committed

def Impl.happens (config : Config) : List Event → Impl → Except Fault (Impl × List Bool)
  | [], impl => .ok (impl, [])
  | event :: events, impl => do
    let (impl, answered) ← impl.happen config event
    let (impl, answers) ← Impl.happens config events impl
    return (impl, answered :: answers)


/-! ### The map of values -/

abbrev Values := Text → Option Value

def Request.apply : Request → Values → Values
  | .set key value, values => Function.update values key (some value.1)
  | .erase key, values => Function.update values key none

/-- Only a request that succeeds changes a value. -/
def Event.apply (values : Values) : Event × Bool → Values
  | (.request asked _ _, true) => asked.apply values
  | _ => values

/-- What a table holds. -/
def Table.values (config : Config) (table : Table) : Values := fun key =>
  (find key table.rows).bind fun bytes =>
    (decodeValue bytes config.valueLimits).toOption

/-- Every row of the table can be decoded. -/
def Table.Decodes (config : Config) (table : Table) : Prop :=
  ∀ row ∈ table.rows, ∃ value, decodeValue row.2 config.valueLimits = .ok value

variable {config : Config}

theorem Table.values_upsert {key : Text} {value : Value} {bytes : List UInt8}
    (h : decodeValue bytes config.valueLimits = .ok value) (table : Table) :
    (table.upsert key bytes).values config =
      Function.update (table.values config) key (some value) := by
  funext other
  unfold Table.values Table.upsert
  rw [find_upsert, Function.update_apply]
  split
  · rw [Option.bind_some, h]
    rfl
  · rfl

theorem Table.values_delete (key : Text) (table : Table) :
    (table.delete key).values config = Function.update (table.values config) key none := by
  funext other
  unfold Table.values Table.delete
  rw [find_erase key table.keys, Function.update_apply]
  split
  · rfl
  · rfl

theorem Table.Decodes.upsert {table : Table} (htable : table.Decodes config) {key : Text}
    {value : Value} {bytes : List UInt8} (h : decodeValue bytes config.valueLimits = .ok value) :
    (table.upsert key bytes).Decodes config := by
  intro row hrow
  rcases List.mem_cons.mp ((upsert_perm table.keys).mem_iff.mp hrow) with rfl | hmem
  · exact ⟨value, h⟩
  · exact htable row (mem_erase.mp hmem).1

theorem Table.Decodes.delete {table : Table} (htable : table.Decodes config) (key : Text) :
    (table.delete key).Decodes config :=
  fun row hrow => htable row (mem_erase.mp hrow).1

/-- **What a request comes to as a statement.** -/
theorem Request.command_apply {request : Request} {command : Command}
    (h : request.command config = .ok command) {table : Table} (htable : table.Decodes config) :
    (command.operation = .set ∨ command.operation = .delete) ∧
      (command.apply table).Decodes config ∧
      (command.apply table).values config = request.apply (table.values config) := by
  cases request with
  | set key value =>
    obtain ⟨_, -, h⟩ := bind_eq_ok.mp h
    obtain ⟨bytes, hencode, h⟩ := bind_eq_ok.mp h
    cases h
    have hdecode := decodeValue_of_encodeValue value.2 hencode
    exact ⟨.inl rfl, htable.upsert hdecode, Table.values_upsert hdecode table⟩
  | erase key =>
    obtain ⟨_, -, h⟩ := bind_eq_ok.mp h
    cases h
    exact ⟨.inr rfl, htable.delete key, Table.values_delete key table⟩

/-! ### Opening the store -/

theorem loadRows_decodes {rows : List Entry} {cache : Cache} {bytes : ℤ} {after : Cache × ℤ}
    (h : loadRows config rows cache bytes = .ok after) :
    ∀ row ∈ rows, ∃ value, decodeValue row.2 config.valueLimits = .ok value := by
  induction rows generalizing cache bytes with
  | nil => exact fun _ hrow => absurd hrow List.not_mem_nil
  | cons first rows ih =>
    obtain ⟨value, hvalue, h⟩ := bind_eq_ok.mp h
    obtain ⟨_, -, h⟩ := bind_eq_ok.mp h
    intro row hrow
    rcases List.mem_cons.mp hrow with rfl | hrow
    · exact ⟨value, hvalue⟩
    · exact ih h row hrow

/-- Rows that decode are read, when their total is within the limit. -/
theorem loadRows_ok {rows : List Entry}
    (h : ∀ row ∈ rows, ∃ value, decodeValue row.2 config.valueLimits = .ok value) (cache : Cache)
    (bytes : ℤ) (hlimit : bytes + total entryBytes rows ≤ config.kvTotalBytes) :
    ∃ after, loadRows config rows cache bytes = .ok after := by
  induction rows generalizing cache bytes with
  | nil => exact ⟨_, rfl⟩
  | cons row rows ih =>
    obtain ⟨value, hvalue⟩ := h row List.mem_cons_self
    rw [total_cons] at hlimit
    obtain ⟨after, hafter⟩ := ih (fun other hother => h other (List.mem_cons_of_mem _ hother))
      (cache.insert row.1 row.2) (bytes + entryBytes row.1 row.2) (by omega)
    refine ⟨after, ?_⟩
    unfold loadRows
    rw [hvalue, ok_bind, refuse_of_not (by omega), ok_bind, hafter]

/-- The cache is the table, and the table can be read again. -/
structure Impl.Sound (config : Config) (impl : Impl) : Prop where
  coherent : impl.Coherent config
  decodes : impl.kv.committed.Decodes config

variable {impl : Impl}

theorem Impl.Sound.construct {committed : Table}
    (h : Impl.construct config committed = .ok impl) :
    impl.Sound config ∧ impl.kv.committed = committed := by
  refine ⟨⟨construct_coherent h, ?_⟩, ?_⟩ <;> obtain ⟨loaded, hload, h⟩ := bind_eq_ok.mp h
  · cases h
    exact loadRows_decodes hload
  · cases h
    rfl

/-- **The next process opens what this one has committed.** -/
theorem Impl.Sound.reopens (h : impl.Sound config) :
    ∃ reopened, Impl.construct config impl.kv.committed = .ok reopened := by
  have htotal := @total_perm _ _ entryBytes _ _ h.coherent.entries
  have hlimit := h.coherent.limit
  rw [h.coherent.bytes, htotal] at hlimit
  obtain ⟨loaded, hload⟩ := loadRows_ok h.decodes {} 0 (by omega)
  refine ⟨{ cache := loaded.1, cacheBytes := loaded.2, kv := { committed := impl.kv.committed } },
    ?_⟩
  unfold Impl.construct
  rw [hload]
  rfl

theorem Impl.Sound.get (h : impl.Sound config) (key : Text) :
    impl.get config key = .ok (impl.kv.committed.values config key) := by
  unfold Impl.get Cache.find Table.values
  rw [find_perm impl.cache.nodup_keys h.coherent.entries]
  cases hfind : find key impl.kv.committed.rows with
  | none => rfl
  | some bytes =>
    obtain ⟨value, hvalue⟩ := h.decodes _ (mem_of_find hfind)
    dsimp only at hvalue ⊢
    rw [Option.bind_some, hvalue]
    rfl

/-! ### Every run -/

/-- **One event moves the table as its answer says.** -/
theorem Impl.Sound.happen (h : impl.Sound config) (event : Event) :
    ∃ after answered, impl.happen config event = .ok (after, answered) ∧ after.Sound config ∧
      after.kv.committed.values config =
        Event.apply (impl.kv.committed.values config) (event, answered) := by
  cases event with
  | restart =>
    obtain ⟨reopened, hopen⟩ := h.reopens
    obtain ⟨hsound, hsame⟩ := Impl.Sound.construct hopen
    refine ⟨reopened, true, ?_, hsound, congrArg (Table.values config) hsame⟩
    unfold Impl.happen
    dsimp only
    rw [hopen]
    rfl
  | request request staged outcomes =>
    unfold Impl.happen
    dsimp only
    cases hcommand : request.command config with
    | error message => exact ⟨impl, false, rfl, h, rfl⟩
    | ok command =>
      obtain ⟨hoperation, hdecodes, hvalues⟩ := Request.command_apply hcommand h.decodes
      have hcoherent := h.coherent.writeOne command staged outcomes
      refine ⟨_, _, rfl, ?_⟩
      obtain ⟨failure, hfailed, -, -, hsame⟩ | ⟨hdone, ⟨hset, hdelete, -⟩ | ⟨-, hafter⟩⟩ :=
        writeOne_cases config command staged outcomes impl
      · refine ⟨⟨hcoherent.of_same ⟨rfl, rfl, rfl⟩, ?_⟩, ?_⟩
        · show (writeOne config command staged outcomes impl).1.kv.committed.Decodes config
          rw [hsame]
          exact h.decodes
        · rw [hfailed]
          exact congrArg (Table.values config) hsame
      · exact absurd hoperation (not_or.mpr ⟨hset, hdelete⟩)
      · refine ⟨⟨hcoherent.of_same ⟨rfl, rfl, rfl⟩, ?_⟩, ?_⟩
        · show (writeOne config command staged outcomes impl).1.kv.committed.Decodes config
          rw [hafter]
          exact hdecodes
        · rw [hdone]
          refine Eq.trans ?_ hvalues
          exact congrArg (fun impl : Impl => impl.kv.committed.values config) hafter

theorem Impl.Sound.happens (h : impl.Sound config) (events : List Event) :
    ∃ after answers, impl.happens config events = .ok (after, answers) ∧
      answers.length = events.length ∧ after.Sound config ∧
      after.kv.committed.values config =
        (events.zip answers).foldl Event.apply (impl.kv.committed.values config) := by
  induction events generalizing impl with
  | nil => exact ⟨impl, [], rfl, rfl, h, rfl⟩
  | cons event events ih =>
    obtain ⟨middle, answered, hevent, hsound, hvalues⟩ := h.happen event
    obtain ⟨after, answers, hevents, hlength, hafter, hrest⟩ := ih hsound
    refine ⟨after, answered :: answers, ?_, congrArg Nat.succ hlength, hafter, ?_⟩
    · unfold Impl.happens
      rw [hevent]
      show (Impl.happens config events middle >>= _) = _
      rw [hevents]
      rfl
    · rw [hrest, hvalues]
      rfl

/-- **The store is a map of values.**  Whatever requests a script makes, whatever calls of the
database fail and wherever the process is started anew, the store opens again, and every key
has the value of the last request for it that succeeded, or else the value it had at first. -/
theorem values_kept {committed : Table} (hopen : Impl.construct config committed = .ok impl)
    (events : List Event) :
    ∃ after answers, impl.happens config events = .ok (after, answers) ∧
      answers.length = events.length ∧ ∀ key, after.get config key =
        .ok ((events.zip answers).foldl Event.apply (committed.values config) key) := by
  obtain ⟨hsound, rfl⟩ := Impl.Sound.construct hopen
  obtain ⟨after, answers, hevents, hlength, hafter, hvalues⟩ := hsound.happens events
  exact ⟨after, answers, hevents, hlength, fun key => by rw [hafter.get key, hvalues]⟩

/-- A value is set, an erase of it fails at its commit and the process is started anew. -/
theorem values_kept_restart :
    let failure : Failure := ⟨"disk I/O error", by decide⟩
    let events : List Event :=
      [.request (.set [107] ⟨.null, trivial⟩) none {},
        .request (.erase [107]) none { commit := some ⟨failure, false⟩ }, .restart]
    ∃ after, Impl.happens {} events {} = .ok (after, [true, false, true]) ∧
      after.get {} [107] = .ok (some .null) := by
  intro failure events
  have hopen : Impl.construct {} {} = .ok {} := rfl
  obtain ⟨after, answers, hevents, -, hvalues⟩ := values_kept hopen events
  have hanswers : (Impl.happens {} events {}).map (·.2) = .ok [true, false, true] := by
    decide +kernel
  rw [hevents] at hanswers
  cases hanswers
  exact ⟨after, hevents, hvalues [107]⟩

end ProtoScope.Storage.KeyValue
