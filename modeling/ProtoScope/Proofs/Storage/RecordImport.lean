/-
An import is all or nothing.

Until the index is committed every step stays within two directories that no index names.  A
failure discards what can be discarded of them, and whatever is left is not looked at again.
When the commit is reached, every record of the source has been stored and sealed.
-/
import ProtoScope.Storage.RecordImport
import ProtoScope.Proofs.Storage.Calls

namespace ProtoScope.Storage.RecordImport

open ProtoScope.Data ProtoScope.Library VolumeCatalog Durable

/-! ### Programs that can be refused -/

section Spec

variable {α β : Type} {safe pre fail : RecordDirectory → Prop}

/-- Assertions about the directory alone: after each step, before, and when the program ends or
fails. -/
def Spec (safe pre : RecordDirectory → Prop) (p : Storing Refusals α)
    (post : α → RecordDirectory → Prop) (fail : RecordDirectory → Prop) : Prop :=
  Triple (fun _ _ => pre) p (fun _ => safe) (fun a _ _ => post a) (fun _ _ _ => fail)

namespace Spec

variable {p : Storing Refusals α} {post : α → RecordDirectory → Prop}

theorem bind {f : α → Storing Refusals β} {middle : α → RecordDirectory → Prop}
    {post : β → RecordDirectory → Prop} (hp : Spec safe pre p middle fail)
    (hf : ∀ a, Spec safe (middle a) (f a) post fail) : Spec safe pre (p >>= f) post fail :=
  Triple.bind hp hf

theorem conseq {pre' fail' : RecordDirectory → Prop} {post' : α → RecordDirectory → Prop}
    (hp : Spec safe pre p post fail) (hpre : ∀ s, pre' s → pre s)
    (hpost : ∀ a s, post a s → post' a s) (hfail : ∀ s, fail s → fail' s) :
    Spec safe pre' p post' fail' :=
  Triple.conseq hp (fun _ _ => hpre) (fun _ _ h => h) (fun a _ _ => hpost a) fun _ _ _ => hfail

theorem of_subset {pre' : RecordDirectory → Prop} (hp : Spec safe pre p post fail)
    (hpre : ∀ s, pre' s → pre s) : Spec safe pre' p post fail :=
  hp.conseq hpre (fun _ _ h => h) fun _ h => h

theorem of_pre (hp : ∀ d, pre d → Spec safe (· = d) p post fail) : Spec safe pre p post fail :=
  fun h m s hs => hp s hs h m s rfl

theorem pure {a : α} (h : ∀ s, pre s → post a s) : Spec safe pre (Pure.pure a) post fail :=
  Triple.pure fun _ _ s => h s

theorem write {step : Step} {post : Unit → RecordDirectory → Prop}
    (hsafe : ∀ s, post () s → safe s) (h : ∀ s, pre s → post () (apply s step)) :
    Spec safe pre (.write step) post fail :=
  Triple.write (fun _ _ s hs => hsafe _ (h s hs)) fun _ _ s => h s

theorem ofExcept {r : Except String α} (hok : ∀ a, r = .ok a → ∀ s, pre s → post a s)
    (hfail : ∀ s, pre s → fail s) : Spec safe pre (.ofExcept r) post fail :=
  Triple.ofExcept (fun a _ _ s hr => hok a hr s) fun _ _ _ s _ => hfail s

theorem attempt (h : ∀ s, pre s → fail s) : Spec safe pre attempt (fun _ => pre) fail := by
  intro history run s hs
  refine ⟨fun steps hne hleading => absurd (List.prefix_nil.mp hleading) hne, ?_⟩
  unfold RecordImport.attempt
  dsimp only
  cases run.refused run.next with
  | none => exact hs
  | some error => exact h s hs

theorem permitted : Spec safe pre permitted (fun _ => pre) fail :=
  fun _ _ _ hs => ⟨fun _ hne hleading => absurd (List.prefix_nil.mp hleading) hne, hs⟩

theorem durable : Spec safe pre .durable (fun d s => s = d ∧ pre s) fail :=
  Triple.durable fun _ _ _ hs => ⟨rfl, hs⟩

theorem onError {cleanup : Storing Refusals Unit} {middle : RecordDirectory → Prop}
    (hp : Spec safe pre p post middle)
    (hcleanup : Spec safe middle cleanup (fun _ => fail) fail) :
    Spec safe pre (p.onError cleanup) post fail :=
  Triple.onError hp fun _ => hcleanup

end Spec

/-! ### Programs that fail where they have changed nothing that counts -/

variable {post : β → RecordDirectory → Prop} (hfail : ∀ s, pre s → fail s)

include hfail

theorem attempt_then {f : Unit → Storing Refusals β} (h : Spec safe pre (f ()) post fail) :
    Spec safe pre (attempt >>= f) post fail :=
  (Spec.attempt hfail).bind fun _ => h

theorem ofExcept_then {r : Except String α} {f : α → Storing Refusals β}
    (h : ∀ a, r = .ok a → Spec safe pre (f a) post fail) :
    Spec safe pre (Program.ofExcept r >>= f) post fail :=
  Spec.bind (Spec.ofExcept (fun a hr s hs => (⟨hr, hs⟩ : r = .ok a ∧ pre s)) hfail) fun a =>
    Spec.of_pre fun _ hd => (h a hd.1).of_subset fun _ hs => hs ▸ hd.2

theorem failIf_then {condition : Prop} [Decidable condition] {error : String}
    {f : Unit → Storing Refusals β} (h : Spec safe pre (f ()) post fail) :
    Spec safe pre (Program.failIf condition error >>= f) post fail :=
  @ofExcept_then _ _ _ _ _ _ hfail (if condition then .error error else .ok ()) f fun _ _ => h

omit hfail in
theorem write_then {step : Step} (middle : RecordDirectory → Prop) {f : Unit → Storing Refusals β}
    (hsafe : ∀ s, middle s → safe s) (hwrite : ∀ s, pre s → middle (apply s step))
    (h : Spec safe middle (f ()) post fail) : Spec safe pre (Program.write step >>= f) post fail :=
  Spec.bind (Spec.write hsafe hwrite) fun _ => h

end Spec

/-! ### The directories of one import -/

/-- Only the two directories of one import differ, and before the move only the one in staging. -/
structure Aside (moved : Bool) (identity : String) (d s : RecordDirectory) : Prop where
  index : s.index = d.index
  staging : ∀ other, other ≠ identity → s.staging other = d.staging other
  volumes : ∀ other, other ≠ identity ∨ moved = false → s.volumes other = d.volumes other

section Aside

variable {moved : Bool} {identity : String} {d s : RecordDirectory}

theorem Aside.refl (moved : Bool) (identity : String) (d : RecordDirectory) :
    Aside moved identity d d :=
  ⟨rfl, fun _ _ => rfl, fun _ _ => rfl⟩

theorem Aside.withStaging (h : Aside moved identity d s) (directory : Option VolumeDirectory) :
    Aside moved identity d { s with staging := Function.update s.staging identity directory } :=
  ⟨h.index, fun other hne => (Function.update_of_ne hne ..).trans (h.staging other hne), h.volumes⟩

theorem Aside.withVolume (h : Aside true identity d s) (directory : Option VolumeDirectory) :
    Aside true identity d { s with volumes := Function.update s.volumes identity directory } := by
  refine ⟨h.index, h.staging, fun other hother => ?_⟩
  have hne : other ≠ identity := hother.resolve_right Bool.noConfusion
  exact (Function.update_of_ne hne ..).trans (h.volumes other hother)

theorem Aside.relax (h : Aside moved identity d s) : Aside true identity d s :=
  ⟨h.index, h.staging, fun other hother =>
    h.volumes other (.inl (hother.resolve_right Bool.noConfusion))⟩

variable {safe : RecordDirectory → Prop} (hsafe : ∀ s, Aside moved identity d s → safe s)

include hsafe

/-- Whatever the destructor removes, it stays within the directory of the import. -/
theorem discard_spec :
    Spec safe (Aside moved identity d) (discard moved identity) (fun _ => Aside moved identity d)
      (Aside moved identity d) := by
  have hremove : ∀ file, Spec safe (Aside moved identity d)
      (if moved then removeIfExists identity file
        else StagedRecordImport.removeStagedIfExists identity file)
      (fun _ => Aside moved identity d) (Aside moved identity d) := by
    intro file
    cases moved with
    | true =>
      refine Spec.durable.bind fun s => ?_
      split
      · exact Spec.pure fun _ hs => hs.2
      · split
        · exact Spec.write hsafe fun _ hs => hs.2.withVolume _
        · exact Spec.pure fun _ hs => hs.2
    | false =>
      refine Spec.durable.bind fun s => ?_
      split
      · exact Spec.pure fun _ hs => hs.2
      · split
        · exact Spec.write hsafe fun _ hs => hs.2.withStaging _
        · exact Spec.pure fun _ hs => hs.2
  have hfile : ∀ file, Spec safe (Aside moved identity d) (discardFile moved identity file)
      (fun _ => Aside moved identity d) (Aside moved identity d) := by
    intro file
    refine Spec.permitted.bind fun allowed => ?_
    split
    · exact hremove file
    · exact Spec.pure fun _ hs => hs
  refine Spec.permitted.bind fun allowed => Spec.durable.bind fun s => ?_
  split
  · refine Spec.of_subset ?_ fun _ hs => hs.2
    refine (hfile .database).bind fun _ => (hfile .wal).bind fun _ => (hfile .shm).bind fun _ =>
      (hfile .owner).bind fun _ => Spec.permitted.bind fun allowed => Spec.durable.bind fun s => ?_
    split
    · refine Spec.write hsafe fun s hs => ?_
      cases moved with
      | true => exact hs.2.withVolume _
      | false => exact hs.2.withStaging _
    · exact Spec.pure fun _ hs => hs.2
  · exact Spec.pure fun _ hs => hs.2

/-! ### Staging -/

theorem commitBatch_spec (full : Bool) (database : VolumeDatabase) :
    Spec safe (Aside moved identity d) (commitBatch full identity database)
      (fun _ => Aside moved identity d) (Aside moved identity d) := by
  unfold commitBatch
  split
  · exact attempt_then (fun _ hs => hs) (Spec.write hsafe fun _ hs => hs.withStaging _)
  · exact Spec.pure fun _ hs => hs

/-- The loop stays in the staging directory and goes through all records. -/
theorem insertRecords_spec {protocol : Text} {schemas : List (ℕ × Schema)} {late : ℕ → Bool}
    (records : List Record) (info : StagedRecordImport) (inserted : List Record) (rows bytes : ℕ) :
    Spec safe (Aside moved identity d)
      (insertRecords protocol identity schemas late info inserted rows bytes records)
      (fun result s => Aside moved identity d s ∧ result = records.foldl received info)
      (Aside moved identity d) := by
  induction records generalizing info inserted rows bytes with
  | nil => exact Spec.pure fun _ hs => ⟨hs, rfl⟩
  | cons record records ih =>
    have keep : ∀ s, Aside moved identity d s → Aside moved identity d s := fun _ hs => hs
    refine attempt_then keep (attempt_then keep (failIf_then keep (ofExcept_then keep fun value _ =>
      ofExcept_then keep fun payload _ => attempt_then keep ?_)))
    exact (commitBatch_spec hsafe _ _).bind fun _ =>
      attempt_then keep (attempt_then keep (ih _ _ _ _))

omit hsafe

/-- The staging of a source, as far as it concerns the result. -/
def stagedInfo (identity : String) (records : List Record) : StagedRecordImport :=
  records.foldl received { identity := identity, records := 0, fromUs := none, toUs := none }

theorem foldl_received (records : List Record) (info : StagedRecordImport) :
    records.foldl received info =
      { identity := info.identity
        records := info.records + records.length
        fromUs := (records.map (·.receivedAtUs.toInt)).foldl least info.fromUs
        toUs := (records.map (·.receivedAtUs.toInt)).foldl greatest info.toUs } := by
  induction records generalizing info with
  | nil => rfl
  | cons record records ih =>
    rw [List.foldl_cons, ih, List.length_cons, received]
    dsimp only
    rw [Nat.add_assoc, Nat.add_comm 1]
    rfl

include hsafe in
/-- **A staging that succeeds leaves what it would in one step**, and has read the source to its
end. -/
theorem fillStaging_spec {protocol : Text} {source : ImportSource} {late : ℕ → Bool} :
    Spec safe (Aside moved identity d) (fillStaging protocol source late identity)
      (fun info s => Aside moved identity d s ∧ info = stagedInfo identity source.records ∧
        source.error = none ∧
        s.staging identity = some (stagedDirectory protocol identity source.schemas source.records))
      (Aside moved identity d) := by
  have hstage : ∀ (directory : VolumeDirectory) s, Aside moved identity d s →
      Aside moved identity d (apply s (Step.stage identity directory)) :=
    fun directory s hs => hs.withStaging _
  have keep : ∀ s, Aside moved identity d s → Aside moved identity d s := fun _ hs => hs
  refine attempt_then keep (write_then _ hsafe (hstage _) (attempt_then keep (write_then _ hsafe
    (hstage _) (attempt_then keep (write_then _ hsafe (hstage _) (attempt_then keep
      (write_then _ hsafe (hstage _) (ofExcept_then keep fun _ _ => attempt_then keep
        (write_then _ hsafe (hstage _) (attempt_then keep ?_))))))))))
  refine (insertRecords_spec hsafe _ _ _ _ _).bind fun info => Spec.of_pre fun s hs => ?_
  obtain ⟨hs, hinfo⟩ := hs
  refine Spec.of_subset ?_ fun s' hs' => (show Aside moved identity d s' from hs' ▸ hs)
  refine ofExcept_then keep fun _ hend => attempt_then keep (attempt_then keep (attempt_then keep
    (write_then _ hsafe (hstage _) (attempt_then keep ?_))))
  have herror : source.error = none := by
    cases herror : source.error with
    | none => rfl
    | some error =>
      rw [herror] at hend
      cases hend
  -- what the last step leaves is not touched by the two attempts after it
  refine write_then (fun s => Aside moved identity d s ∧
      s.staging identity = some (stagedDirectory protocol identity source.schemas source.records))
    (fun s hs => hsafe s hs.1) (fun s hs => ⟨hstage _ s hs, Function.update_self ..⟩) ?_
  exact attempt_then (fun _ hs => hs.1) (attempt_then (fun _ hs => hs.1)
    (Spec.pure fun s hs => ⟨hs.1, hinfo, herror, hs.2⟩))

omit hsafe

/-- Takes an identity that has no staging directory. -/
theorem reserveStaging_spec
    (hsafe : ∀ identity s, d.staging identity = none → Aside false identity d s → safe s)
    (identities : List String) :
    Spec safe (· = d) (reserveStaging identities)
      (fun identity s => d.staging identity = none ∧ Aside false identity d s) (· = d) := by
  induction identities with
  | nil => exact Spec.ofExcept (fun _ hr => by cases hr) fun _ hs => hs
  | cons identity identities ih =>
    refine attempt_then (fun _ hs => hs) (Spec.durable.bind fun s => Spec.of_pre fun start hs => ?_)
    obtain ⟨hs, hd⟩ := hs
    subst hs
    subst hd
    split
    · exact ih
    · rename_i hfree
      have hnone : start.staging identity = none := by simpa using hfree
      refine write_then (Aside false identity start) (fun s => hsafe identity s hnone)
        (fun s hs => ?_) (Spec.pure fun s hs => ⟨hnone, hs⟩)
      subst hs
      exact (Aside.refl ..).withStaging _

end Aside

/-- No volume of the index has this identity. -/
def Uncatalogued (d : RecordDirectory) (identity : String) : Prop :=
  ∀ catalog, d.index = .holds catalog → ∀ entry ∈ catalog.volumes, entry.identity ≠ identity

/-- What an import leaves that has failed. -/
def Undone (d s : RecordDirectory) : Prop :=
  s = d ∨ ∃ moved identity, d.staging identity = none ∧ Aside moved identity d s ∧
    (moved = true → Uncatalogued d identity)

variable {d : RecordDirectory}

theorem undone_of_staging {s : RecordDirectory} {identity : String}
    (hfree : d.staging identity = none) (h : Aside false identity d s) : Undone d s :=
  .inr ⟨false, identity, hfree, h, Bool.noConfusion⟩

/-- The import has read this source to its end and staged it. -/
def Staged (d : RecordDirectory) (root : RecordRoot) (read : ImportSource)
    (staged : StagedRecordImport) (s : RecordDirectory) : Prop :=
  d.staging staged.identity = none ∧ Aside false staged.identity d s ∧ read.error = none ∧
    staged = stagedInfo staged.identity read.records ∧
    s.staging staged.identity =
      some (stagedDirectory root.protocol staged.identity read.schemas read.records)

theorem stageRecordImport_spec {safe : RecordDirectory → Prop} (hsafe : ∀ s, Undone d s → safe s)
    {root : RecordRoot} {limits : ImportLimits} {source : Except String ImportSource}
    {identities : ℕ → String} {late : ℕ → Bool} :
    Spec safe (· = d) (stageRecordImport root limits source identities late)
      (fun staged s => ∃ read, source = .ok read ∧ Staged d root read staged s) (Undone d) := by
  have keep : ∀ s, s = d → Undone d s := fun _ hs => .inl hs
  refine attempt_then keep (failIf_then keep (attempt_then keep (ofExcept_then keep
    fun read hread => attempt_then keep ?_)))
  refine ((reserveStaging_spec (fun _ s hfree hs => hsafe s (undone_of_staging hfree hs)) _).conseq
    (fun _ h => h) (fun _ _ h => h) keep).bind fun identity => Spec.of_pre fun s hs => ?_
  obtain ⟨hfree, hs⟩ := hs
  have haside : ∀ s, Aside false identity d s → safe s :=
    fun s hs => hsafe s (undone_of_staging hfree hs)
  have hinfo : ∀ records, (stagedInfo identity records).identity = identity := fun records => by
    rw [stagedInfo, foldl_received]
  refine Spec.onError ((fillStaging_spec haside).conseq (fun s' hs' => hs' ▸ hs) ?_ fun _ h => h)
    ((discard_spec haside).conseq (fun _ h => h) (fun _ _ => undone_of_staging hfree)
      fun _ => undone_of_staging hfree)
  rintro info s' ⟨hs', rfl, herror, hstaged⟩
  refine ⟨read, hread, ?_⟩
  unfold Staged
  rw [hinfo]
  exact ⟨hfree, hs', herror, rfl, hstaged⟩

/-! ### What the index learns -/

theorem foldl_least (values : List ℤ) (first : ℤ) :
    values.foldl least (some first) = some (values.foldl min first) :=
  List.foldl_hom some fun first value => by
    dsimp only [least]
    split <;> congr 1 <;> omega

theorem foldl_greatest (values : List ℤ) (first : ℤ) :
    values.foldl greatest (some first) = some (values.foldl max first) :=
  List.foldl_hom some fun first value => by
    dsimp only [greatest]
    split <;> congr 1 <;> omega

theorem stagedInfo_eq (identity : String) (records : List Record) :
    stagedInfo identity records =
      { identity := identity
        records := records.length
        fromUs := (records.map (·.receivedAtUs.toInt)).min?
        toUs := (records.map (·.receivedAtUs.toInt)).max? } := by
  rw [stagedInfo, foldl_received, Nat.zero_add]
  dsimp only
  cases records.map (·.receivedAtUs.toInt) with
  | nil => rfl
  | cons value values =>
    rw [List.foldl_cons, List.foldl_cons]
    dsimp only [least, greatest]
    rw [foldl_least, foldl_greatest]
    rfl

theorem getElem?_numberRecords (last : ℤ) (records : List Record) (i : ℕ) :
    (numberRecords last records)[i]? = records[i]?.map fun record => ⟨last + i + 1, record⟩ := by
  induction records generalizing last i with
  | nil => rfl
  | cons record records ih =>
    rw [numberRecords]
    cases i with
    | zero => simp
    | succ i =>
      rw [List.getElem?_cons_succ, List.getElem?_cons_succ, ih]
      congr 1
      funext record
      congr 1
      omega

/-- A definition is registered under the id of one that is equal to it. -/
theorem registerEach_spec (schemas : List Schema) (locals : List (ℕ × Schema)) :
    schemas <+: (registerEach schemas locals).1 ∧
      ∀ entry ∈ locals, ∃ id, (entry.1, id + 1) ∈ (registerEach schemas locals).2 ∧
        (registerEach schemas locals).1[id]? = some entry.2 := by
  induction locals generalizing schemas with
  | nil => exact ⟨List.prefix_rfl, fun _ h => by cases h⟩
  | cons entry locals ih =>
    obtain ⟨localId, schema⟩ := entry
    have hfirst : schemas <+: (registerSchema schemas schema).1 ∧ ∃ id,
        (registerSchema schemas schema).2 = id + 1 ∧
          (registerSchema schemas schema).1[id]? = some schema := by
      unfold registerSchema
      split
      · rename_i index hindex
        refine ⟨List.prefix_rfl, index, rfl, ?_⟩
        obtain ⟨hlt, hfound, -⟩ := List.idxOf?_eq_some_iff.mp hindex
        exact List.getElem?_eq_some_iff.mpr ⟨hlt, hfound⟩
      · exact ⟨List.prefix_append _ _, schemas.length, rfl, List.getElem?_concat_length⟩
    unfold registerEach
    dsimp only
    obtain ⟨hleading, id, hid, hget⟩ := hfirst
    obtain ⟨hrest, hmapped⟩ := ih (registerSchema schemas schema).1
    refine ⟨hleading.trans hrest, fun other hother => ?_⟩
    rcases List.mem_cons.mp hother with rfl | hother
    · obtain ⟨hlt, hsame⟩ := List.getElem?_eq_some_iff.mp hget
      exact ⟨id, hid ▸ List.mem_cons_self,
        (List.prefix_iff_getElem?.mp hrest id hlt).trans (congrArg some hsame)⟩
    · obtain ⟨id, hmem, hget⟩ := hmapped other hother
      exact ⟨id, List.mem_cons_of_mem _ hmem, hget⟩

/-- The index that an adoption commits. -/
theorem withImport_eq_ok {catalog next : Catalog} {staged : StagedRecordImport}
    {database : VolumeDatabase} {sealedAtUs : ℤ} {stopped : VolumeCatalog.AdoptCheck → Bool}
    (h : withImport catalog staged database sealedAtUs stopped = .ok next) :
    0 ≤ next.importNext ∧ next.importNext + staged.records = catalog.importNext ∧
      (∀ entry ∈ catalog.volumes, entry.identity ≠ staged.identity) ∧
      next = { catalog with
        importNext := next.importNext
        schemas := (registerEach catalog.schemas database.schemas).1
        volumes := catalog.volumes ++
          [importEntry catalog staged sealedAtUs next.importNext]
        lastVolumeId := catalog.lastVolumeId + 1
        volumeSchemas := catalog.volumeSchemas ++
          (registerEach catalog.schemas database.schemas).2.map fun mapping =>
            (catalog.lastVolumeId + 1, mapping) } := by
  obtain ⟨hspace, h⟩ := invalid_of_ok h
  obtain ⟨-, h⟩ := invalid_of_ok h
  obtain ⟨-, h⟩ := invalid_of_ok h
  obtain ⟨inserted, hinsert, h⟩ := bind_eq_ok.mp h
  obtain ⟨_, -, h⟩ := bind_eq_ok.mp h
  cases h
  obtain ⟨hunique, hinsert⟩ := invalid_of_ok hinsert
  cases hinsert
  refine ⟨?_, ?_, fun entry hentry hsame => hunique ?_, rfl⟩
  · show 0 ≤ catalog.importNext - staged.records
    omega
  · show catalog.importNext - staged.records + staged.records = catalog.importNext
    omega
  · exact List.any_eq_true.mpr ⟨entry, hentry, beq_iff_eq.mpr hsame⟩

/-! ### Adopting -/

section Adopt

variable {d : RecordDirectory} {root : RecordRoot} {read : ImportSource}
  {staged : StagedRecordImport} {sealedAtUs : ℤ} {stopped : VolumeCatalog.AdoptCheck → Bool}

/-- What has been decided when the directory is moved. -/
structure Planned (root : RecordRoot) (staged : StagedRecordImport) (sealedAtUs : ℤ)
    (stopped : VolumeCatalog.AdoptCheck → Bool) (s : RecordDirectory)
    (plan : Catalog × CatalogVolume) (catalog : Catalog) (database : VolumeDatabase) : Prop where
  index : s.index = .holds catalog
  opened : openVolume root.protocol (s.staging staged.identity) staged.identity
    staged.records true = .ok database
  next : withImport catalog staged database sealedAtUs stopped = .ok plan.1
  volume : plan.2 = registeredVolume plan.1
    (importEntry catalog staged sealedAtUs plan.1.importNext) staged.records

theorem moveStaged_spec {safe : RecordDirectory → Prop} (s : RecordDirectory)
    (hsafe : ∀ plan catalog database,
      Planned root staged sealedAtUs stopped s plan catalog database →
      safe (apply s (Step.rename staged.identity))) :
    Spec safe (· = s) (moveStaged root staged sealedAtUs stopped)
      (fun plan s' => s' = apply s (Step.rename staged.identity) ∧
        ∃ catalog database, Planned root staged sealedAtUs stopped s plan catalog database)
      (· = s) := by
  have keep : ∀ s', s' = s → s' = s := fun _ hs => hs
  refine attempt_then keep (failIf_then keep (Spec.durable.bind fun d =>
    Spec.of_pre fun s' hs' => ?_))
  obtain ⟨hd, hs⟩ := hs'
  subst hd
  subst hs
  refine ofExcept_then keep fun database hopened => ofExcept_then keep fun catalog hcatalog =>
    ofExcept_then keep fun next hnext => failIf_then keep (ofExcept_then keep fun _ _ => ?_)
  have hindex : s'.index = .holds catalog := by
    unfold RecordDirectory.catalog at hcatalog
    split at hcatalog
    · rename_i content hindex
      cases hcatalog
      exact hindex
    · cases hcatalog
  refine write_then (· = apply s' (Step.rename staged.identity)) (fun after hafter => ?_)
    (fun _ hs => by rw [hs]) (Spec.pure fun _ hs =>
      ⟨hs, catalog, database, hindex, hopened, hnext, rfl⟩)
  rw [hafter]
  exact hsafe (next, registeredVolume next
    (importEntry catalog staged sealedAtUs next.importNext) staged.records)
    catalog database ⟨hindex, hopened, hnext, rfl⟩

/-- The move is between the two directories of the import. -/
theorem Aside.rename {moved : Bool} {identity : String} {s : RecordDirectory}
    (h : Aside moved identity d s) :
    Aside true identity d (apply s (Step.rename identity)) :=
  (h.relax.withVolume (s.staging identity)).withStaging none

/-- A failure after the staging leaves the index alone, and so does one after the move. -/
theorem adopt_spec {safe : RecordDirectory → Prop} (hsafe : ∀ s, Undone d s → safe s)
    {s : RecordDirectory} (h : Staged d root read staged s)
    (hdone : ∀ plan catalog database,
      Planned root staged sealedAtUs stopped s plan catalog database →
      safe (apply (apply s (Step.rename staged.identity))
        (Step.commitIndex plan.1))) :
    Spec safe (· = s) (adopt root staged sealedAtUs stopped)
      (fun volume after => ∃ plan catalog database,
        Planned root staged sealedAtUs stopped s plan catalog database ∧ volume = plan.2 ∧
          after = apply (apply s (Step.rename staged.identity))
            (Step.commitIndex plan.1))
      (Undone d) := by
  obtain ⟨hfree, haside, -⟩ := h
  have hmoved : ∀ plan catalog database,
      Planned root staged sealedAtUs stopped s plan catalog database →
      ∀ after, Aside true staged.identity d after → Undone d after := by
    intro plan catalog database hplan after hafter
    refine .inr ⟨true, staged.identity, hfree, hafter, fun _ other hother => ?_⟩
    obtain rfl : catalog = other := by
      rw [← haside.index, hplan.index] at hother
      injection hother
    exact (withImport_eq_ok hplan.next).2.2.1
  have hleft : ∀ after, Aside false staged.identity d after → Undone d after :=
    fun _ => undone_of_staging hfree
  refine Spec.bind (Spec.onError (moveStaged_spec s fun plan catalog database hplan =>
    hsafe _ (hmoved plan catalog database hplan _ haside.rename)) ?_) fun plan =>
      Spec.of_pre fun s' hs' => ?_
  · exact (discard_spec fun after hafter => hsafe after (hleft after hafter)).conseq
      (fun _ hs => hs ▸ haside) (fun _ => hleft) hleft
  obtain ⟨rfl, catalog, database, hplan⟩ := hs'
  have hundone := hmoved plan catalog database hplan
  have hrenamed : ∀ after, after = apply s (Step.rename staged.identity) →
      Aside true staged.identity d after := fun after hafter => hafter ▸ haside.rename
  refine Spec.bind (Spec.onError (failIf_then hrenamed (Spec.attempt hrenamed))
    ((discard_spec fun after hafter => hsafe after (hundone after hafter)).conseq (fun _ h => h)
      (fun _ => hundone) hundone)) fun _ => ?_
  refine write_then (· = apply (apply s (Step.rename staged.identity))
    (Step.commitIndex plan.1)) (fun _ hs => hs ▸ hdone plan catalog database hplan)
    (fun _ hs => by rw [hs]) (Spec.pure fun after hafter => ?_)
  exact ⟨plan, catalog, database, hplan, rfl, hafter⟩

end Adopt

/-! ### All or nothing -/

/-- Nothing that the index leads to has changed. -/
structure Unchanged (root : RecordRoot) (d after : RecordDirectory) : Prop where
  index : after.index = d.index
  volumes : ∀ catalog, d.index = .holds catalog → ∀ entry ∈ catalog.volumes,
    after.volumes entry.identity = d.volumes entry.identity
  queries : pinAll root after = pinAll root d
  /-- what other imports have staged -/
  staging : ∀ identity, d.staging identity ≠ none → after.staging identity = d.staging identity
  others : ∃ own, ∀ identity, identity ≠ own →
    after.volumes identity = d.volumes identity ∧ after.staging identity = d.staging identity

theorem readHighWater_congr {root : RecordRoot} {after : RecordDirectory}
    {volumes : List CatalogVolume}
    (h : ∀ volume ∈ volumes, after.volumes volume.identity = d.volumes volume.identity) :
    readHighWater root after volumes =
      readHighWater root d volumes := by
  induction volumes with
  | nil => rfl
  | cons volume volumes ih =>
    unfold readHighWater
    rw [h volume List.mem_cons_self, ih fun other hother => h other (List.mem_cons_of_mem _ hother)]

theorem Undone.unchanged {root : RecordRoot} {after : RecordDirectory} (h : Undone d after) :
    Unchanged root d after := by
  have hindex : after.index = d.index := by
    rcases h with rfl | ⟨moved, identity, -, haside, -⟩
    · rfl
    · exact haside.index
  have hvolumes : ∀ catalog, d.index = .holds catalog → ∀ entry ∈ catalog.volumes,
      after.volumes entry.identity = d.volumes entry.identity := by
    intro catalog hcatalog entry hentry
    rcases h with rfl | ⟨moved, identity, -, haside, hnew⟩
    · rfl
    · apply haside.volumes
      cases moved with
      | false => exact .inr rfl
      | true => exact .inl (hnew rfl catalog hcatalog entry hentry)
  refine ⟨hindex, hvolumes, ?_, ?_, ?_⟩
  · unfold pinAll RecordDirectory.catalog
    rw [hindex]
    cases hcatalog : d.index with
    | absent => rfl
    | created => rfl
    | holds catalog =>
      rw [ok_bind, ok_bind]
      cases hhanded : volumes root catalog with
      | error error => rfl
      | ok handed =>
        refine readHighWater_congr fun volume hvolume => ?_
        rw [volumes_eq_ok hhanded] at hvolume
        obtain ⟨entry, hentry, rfl⟩ := List.mem_map.mp hvolume
        exact hvolumes catalog hcatalog entry (List.mem_of_mem_filter hentry)
  · intro identity hsome
    rcases h with rfl | ⟨moved, own, hfree, haside, -⟩
    · rfl
    · exact haside.staging identity fun hsame => hsome (hsame ▸ hfree)
  · rcases h with rfl | ⟨moved, own, -, haside, -⟩
    · exact ⟨"", fun _ _ => ⟨rfl, rfl⟩⟩
    · exact ⟨own, fun identity hne =>
        ⟨haside.volumes identity (.inl hne), haside.staging identity hne⟩⟩

/-- The index has one more volume, which holds what was read. -/
structure Imported (root : RecordRoot) (d : RecordDirectory) (read : ImportSource)
    (volume : CatalogVolume) (after : RecordDirectory) (catalog next : Catalog)
    (database : VolumeDatabase) : Prop where
  complete : read.error = none
  before : d.index = .holds catalog
  index : after.index = .holds next
  entries : next.volumes = catalog.volumes ++
    [⟨volume.id, volume.identity, volume.records, volume.fromUs, volume.toUs, volume.sealedAtUs,
      volume.idBase⟩]
  opened : openVolume root.protocol (after.volumes volume.identity) volume.identity
    volume.records true = .ok database
  count : volume.records = read.records.length ∧ database.records.length = read.records.length
  records : ∀ i : ℕ, database.records[i]? =
    read.records[i]?.map fun record => { id := i + 1, record := record }
  fromUs : volume.fromUs = (read.records.map (·.receivedAtUs.toInt)).min?
  toUs : volume.toUs = (read.records.map (·.receivedAtUs.toInt)).max?
  /-- the global ids of the records are just above the new `import_next`, up to the old one -/
  block : volume.idBase = next.importNext ∧ 0 ≤ next.importNext ∧
    next.importNext + volume.records = catalog.importNext
  schemas : ∀ entry ∈ read.schemas, ∃ id, (entry.1, id + 1) ∈ volume.schemaIds ∧
    next.schemas[id]? = some entry.2
  known : catalog.schemas <+: next.schemas ∧ catalog.volumeSchemas <+: next.volumeSchemas
  others : ∀ identity, identity ≠ volume.identity →
    after.volumes identity = d.volumes identity ∧ after.staging identity = d.staging identity

theorem imported_of_planned {s : RecordDirectory} {root : RecordRoot} {read : ImportSource}
    {staged : StagedRecordImport} {sealedAtUs : ℤ} {stopped : VolumeCatalog.AdoptCheck → Bool}
    {plan : Catalog × CatalogVolume} {catalog : Catalog} {database : VolumeDatabase}
    (hstaged : Staged d root read staged s)
    (h : Planned root staged sealedAtUs stopped s plan catalog database) :
    Imported root d read plan.2 (apply (apply s (Step.rename staged.identity))
      (Step.commitIndex plan.1)) catalog plan.1 database := by
  obtain ⟨next, volume⟩ := plan
  obtain ⟨-, haside, herror, hinfo, hstage⟩ := hstaged
  obtain ⟨hindex, hopened, hnext, hvolume⟩ := h
  obtain ⟨hnonneg, hblock, -, heq⟩ := withImport_eq_ok hnext
  dsimp only at hnext hvolume hnonneg hblock heq
  subst hvolume
  rw [stagedInfo_eq] at hinfo
  have hdatabase : database.schemas = read.schemas ∧
      database.records = numberRecords 0 read.records := by
    unfold openVolume at hopened
    rw [hstage] at hopened
    obtain ⟨directory, hdirectory, hopened⟩ := bind_eq_ok.mp hopened
    obtain ⟨_, -, hdirectory⟩ := bind_eq_ok.mp hdirectory
    obtain ⟨-, hdirectory⟩ := invalid_of_ok hdirectory
    cases hdirectory
    obtain ⟨content, hcontent, hopened⟩ := bind_eq_ok.mp hopened
    obtain ⟨_, -, hopened⟩ := bind_eq_ok.mp hopened
    cases hcontent
    cases hopened
    exact ⟨rfl, rfl⟩
  obtain ⟨hschemas, hrecords⟩ := hdatabase
  have hrenamed := haside.rename (d := d)
  have hlength : ∀ (last : ℤ) (records : List Record),
      (numberRecords last records).length = records.length := by
    intro last records
    induction records generalizing last with
    | nil => rfl
    | cons record records ih => rw [numberRecords, List.length_cons, ih, List.length_cons]
  obtain ⟨hleading, hmapped⟩ := registerEach_spec catalog.schemas database.schemas
  have hplaced : (apply (apply s (Step.rename staged.identity))
      (Step.commitIndex next)).volumes staged.identity = s.staging staged.identity :=
    Function.update_self ..
  refine ⟨herror, haside.index ▸ hindex, rfl, ?_, ?_, ⟨?_, ?_⟩, fun i => ?_, ?_, ?_,
    ⟨rfl, hnonneg, hblock⟩, ?_, ⟨?_, ?_⟩, fun identity hne => ?_⟩
  · exact congrArg Catalog.volumes heq
  · exact (congrArg (fun directory => openVolume root.protocol directory
      staged.identity staged.records true) hplaced).trans hopened
  · show staged.records = _
    rw [hinfo]
  · rw [hrecords, hlength]
  · rw [hrecords, getElem?_numberRecords]
    simp
  · show staged.fromUs = _
    rw [hinfo]
  · show staged.toUs = _
    rw [hinfo]
  · intro entry hentry
    obtain ⟨id, hmem, hget⟩ := hmapped entry (hschemas ▸ hentry)
    refine ⟨id, ?_, ?_⟩
    · show _ ∈ schemaIdsOf next (catalog.lastVolumeId + 1)
      refine List.mem_map.mpr ⟨(catalog.lastVolumeId + 1, entry.1, id + 1), List.mem_filter.mpr
        ⟨?_, beq_self_eq_true _⟩, rfl⟩
      rw [heq]
      exact List.mem_append_right _ (List.mem_map_of_mem hmem)
    · rw [heq]
      exact hget
  · rw [heq]
    exact hleading
  · rw [heq]
    exact List.prefix_append _ _
  · exact ⟨hrenamed.volumes identity (.inl hne), hrenamed.staging identity hne⟩

/-- The whole import of a source. -/
def Complete (root : RecordRoot) (d : RecordDirectory) (source : Except String ImportSource)
    (volume : CatalogVolume) (after : RecordDirectory) : Prop :=
  ∃ read catalog next database, source = .ok read ∧
    Imported root d read volume after catalog next database

theorem importRecords_spec (root : RecordRoot) (limits : ImportLimits)
    (source : Except String ImportSource) (identities : ℕ → String) (late : ℕ → Bool)
    (sealedAtUs : ℤ) (stopped : VolumeCatalog.AdoptCheck → Bool) (d : RecordDirectory) :
    Spec (fun s => Undone d s ∨ ∃ volume, Complete root d source volume s) (· = d)
      (importRecords root limits source identities late sealedAtUs stopped)
      (Complete root d source) (Undone d) := by
  refine (stageRecordImport_spec fun _ => .inl).bind fun staged => Spec.of_pre fun s hs => ?_
  obtain ⟨read, hread, hstaged⟩ := hs
  have hcomplete : ∀ plan catalog database,
      Planned root staged sealedAtUs stopped s plan catalog database →
      Complete root d source plan.2 (apply (apply s (Step.rename staged.identity))
        (Step.commitIndex plan.1)) :=
    fun plan catalog database hplan =>
      ⟨read, catalog, plan.1, database, hread, imported_of_planned hstaged hplan⟩
  refine (adopt_spec (fun _ => .inl) hstaged fun plan catalog database hplan =>
    .inr ⟨_, hcomplete plan catalog database hplan⟩).conseq (fun _ h => h) ?_ fun _ h => h
  rintro volume after ⟨plan, catalog, database, hplan, rfl, rfl⟩
  exact hcomplete plan catalog database hplan

end ProtoScope.Storage.RecordImport
