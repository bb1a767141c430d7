/-
The pages of a query over a snapshot.

A query only fails on rows it cannot read or for want of memory: where every matching row is
readable and its keys and pages fit the budgets, every page is returned.  The pages that are
returned make up the sorted merge of the volumes.
-/
import ProtoScope.Proofs.Storage.RecordPages

namespace ProtoScope.Storage

open ProtoScope.Data ProtoScope.Library

/-- A row that a query can give out: its id and record are sound, its sort key takes at most
`key` bytes, and a page spends at most `share` bytes on it. -/
structure Located.Readable (memory : MemorySizes) (snapshot : RecordSnapshot) (key share : ℕ)
    (located : Located) : Prop where
  idPositive : 0 < located.row.id
  baseNonneg : 0 ≤ located.source.idBase
  inRange : located.row.id ≤ int64Max - located.source.idBase
  keyFits : Cursor.keyBytes memory ⟨located.source, located.row, []⟩ ≤ key
  pageFits : ∃ record schema, Cursor.record snapshot ⟨located.source, located.row, []⟩ = .ok record ∧
    snapshot.schemas.lookup record.schemaVersion.toNat = some schema ∧
      memory.schemaBytes schema +
        (memory.recordMemoryBytes record + RecordQueryService.sizeofId) ≤ share

theorem compareValues_sortable {a b : Value} (ha : sortable a = true)
    (h : a.index = b.index) : ∃ order, compareValues a b = .ok order := by
  unfold compareValues
  rw [if_neg (not_not.mpr h)]
  cases a <;> cases b <;> simp [Value.index] at h <;> first | exact ⟨_, rfl⟩ | cases ha

namespace Merge

variable {memory : MemorySizes} {budget : ℕ} {snapshot : RecordSnapshot} {key share : ℕ}

theorem globalId_ok {cursor : Cursor}
    (h : cursor.located.Readable memory snapshot key share) :
    cursor.globalId = .ok cursor.located.number := by
  have hsound : ¬ (cursor.current.id ≤ 0 ∨ cursor.source.idBase < 0 ∨
      int64Max - cursor.source.idBase < cursor.current.id) := by
    have hpositive : 0 < cursor.current.id := h.idPositive
    have hbase : 0 ≤ cursor.source.idBase := h.baseNonneg
    have hrange : cursor.current.id ≤ int64Max - cursor.source.idBase := h.inRange
    omega
  unfold Cursor.globalId
  rw [invalid_of_not hsound]
  rfl

theorem before_ok (sort : Option FieldSort) {a b : Cursor}
    (ha : a.located.Readable memory snapshot key share)
    (hb : b.located.Readable memory snapshot key share) :
    ∃ result, before sort a b = .ok result := by
  have htied : ∃ result, beforeTied a b = .ok result := by
    unfold beforeTied
    split
    · exact ⟨_, rfl⟩
    · rw [globalId_ok ha, globalId_ok hb]
      exact ⟨_, rfl⟩
  unfold before
  cases sort with
  | none => exact htied
  | some sort =>
    have hkeys : ∃ order, compareKeys a.current.sortKey b.current.sortKey = .ok order := by
      unfold compareKeys
      split
      · exact ⟨_, rfl⟩
      · rename_i htype
        exact compareValues_sortable (SortKey.sortable_value _)
          (SortKey.index_eq_of_type_eq (not_not.mp htype))
    obtain ⟨order, horder⟩ := hkeys
    dsimp only
    rw [horder, ok_bind]
    split
    · exact ⟨_, rfl⟩
    · exact htied

theorem push_ok (sort : Option FieldSort) (cursor : Cursor) {heap : List Cursor}
    (hcursor : cursor.located.Readable memory snapshot key share)
    (hheap : ∀ other ∈ heap, other.located.Readable memory snapshot key share) :
    ∃ heap', push sort cursor heap = .ok heap' ∧ heap'.Perm (cursor :: heap) := by
  induction heap with
  | nil => exact ⟨_, rfl, .refl _⟩
  | cons first heap ih =>
    obtain ⟨earlier, hearlier⟩ := before_ok sort (hheap first List.mem_cons_self) hcursor
    unfold push
    rw [hearlier, ok_bind]
    cases earlier with
    | false => exact ⟨_, rfl, .refl _⟩
    | true =>
      obtain ⟨heap', hpush, hperm⟩ :=
        ih fun other hmem => hheap other (List.mem_cons_of_mem _ hmem)
      rw [hpush]
      exact ⟨_, rfl, (hperm.cons first).trans (.swap _ _ _)⟩

/-- A merge of at most `count` cursors over readable rows, whose keys are counted. -/
structure Within (memory : MemorySizes) (snapshot : RecordSnapshot) (key share count : ℕ)
    (merge : Merge) : Prop where
  counted : merge.bytes = (merge.heap.map (Cursor.keyBytes memory)).sum
  few : merge.heap.length ≤ count
  readable : ∀ cursor ∈ merge.heap, ∀ row ∈ cursor.current :: cursor.rest,
    Located.Readable memory snapshot key share ⟨cursor.source, row⟩

theorem sum_keyBytes_le {heap : List Cursor}
    (h : ∀ cursor ∈ heap, cursor.located.Readable memory snapshot key share) :
    (heap.map (Cursor.keyBytes memory)).sum ≤ heap.length * key := by
  have hsum := List.sum_le_card_nsmul (heap.map (Cursor.keyBytes memory)) key ?_
  · simpa using hsum
  · intro size hsize
    obtain ⟨cursor, hcursor, rfl⟩ := List.mem_map.mp hsize
    exact (h cursor hcursor).keyFits

/-- **Queueing the rows of one more source fails for want of memory only.** -/
theorem queueRows_ok (sort : Option FieldSort) {source : RecordSource} {rows : List Row} {merge : Merge} {count : ℕ}
    (h : merge.Within memory snapshot key share count) (hbudget : (count + 1) * key ≤ budget)
    (hrows : ∀ row ∈ rows, Located.Readable memory snapshot key share ⟨source, row⟩) :
    ∃ merge', queueRows memory budget sort source rows merge = .ok merge' ∧
      merge'.Within memory snapshot key share (count + 1) := by
  cases rows with
  | nil => exact ⟨merge, rfl, h.counted, Nat.le_succ_of_le h.few, h.readable⟩
  | cons current rest =>
    have hcursor : Located.Readable memory snapshot key share ⟨source, current⟩ :=
      hrows current List.mem_cons_self
    have hheap : ∀ other ∈ merge.heap, other.located.Readable memory snapshot key share :=
      fun other hmem => h.readable other hmem _ List.mem_cons_self
    have hkey : Cursor.keyBytes memory ⟨source, current, rest⟩ ≤ key := hcursor.keyFits
    have hsum : merge.bytes ≤ count * key := by
      rw [h.counted]
      exact (sum_keyBytes_le hheap).trans (Nat.mul_le_mul_right key h.few)
    have hbytes : ¬ budget - merge.bytes < Cursor.keyBytes memory ⟨source, current, rest⟩ := by
      rw [Nat.succ_mul] at hbudget
      omega
    obtain ⟨heap, hpush, hperm⟩ := push_ok sort ⟨source, current, rest⟩ hcursor hheap
    refine ⟨⟨merge.bytes + Cursor.keyBytes memory ⟨source, current, rest⟩, heap⟩, ?_, ?_, ?_, ?_⟩
    · unfold queueRows addBytes
      dsimp only
      rw [invalid_of_not hbytes, ok_bind]
      simp only [pure_bind]
      rw [hpush]
      rfl
    · dsimp only
      rw [(hperm.map (Cursor.keyBytes memory)).sum_eq, List.map_cons, List.sum_cons, h.counted,
        Nat.add_comm]
    · dsimp only
      rw [hperm.length_eq, List.length_cons]
      exact Nat.succ_le_succ h.few
    · intro cursor hmem
      rcases List.mem_cons.mp (hperm.mem_iff.mp hmem) with rfl | hmem
      · exact hrows
      · exact h.readable cursor hmem

theorem advance_ok (sort : Option FieldSort) {merge : Merge} {count : ℕ}
    (h : merge.Within memory snapshot key share count) (hbudget : count * key ≤ budget) :
    ∃ merge', merge.advance memory budget sort = .ok merge' ∧
      merge'.Within memory snapshot key share count := by
  obtain ⟨bytes, _ | ⟨top, heap⟩⟩ := merge
  · exact ⟨_, rfl, h⟩
  · cases count with
    | zero => exact absurd h.few (Nat.not_succ_le_zero _)
    | succ count =>
      have hrest : Within memory snapshot key share count
          { bytes := bytes - top.keyBytes memory, heap } := by
        refine ⟨?_, Nat.le_of_succ_le_succ h.few,
          fun cursor hmem => h.readable cursor (List.mem_cons_of_mem _ hmem)⟩
        have hcounted : bytes = top.keyBytes memory + (heap.map (Cursor.keyBytes memory)).sum :=
          h.counted
        dsimp only
        omega
      exact queueRows_ok sort hrest hbudget fun row hmem =>
        h.readable top List.mem_cons_self row (List.mem_cons_of_mem _ hmem)

theorem skip_ok (sort : Option FieldSort) (n : ℕ) {merge : Merge} {count : ℕ}
    (h : merge.Within memory snapshot key share count) (hbudget : count * key ≤ budget) :
    ∃ merge', merge.skip memory budget sort n = .ok merge' ∧
      merge'.Within memory snapshot key share count := by
  induction n generalizing merge with
  | zero => exact ⟨merge, rfl, h⟩
  | succ n ih =>
    unfold skip
    split
    · obtain ⟨next, hnext, hwithin⟩ := advance_ok sort h hbudget
      rw [hnext]
      exact ih hwithin
    · exact ⟨merge, rfl, h⟩

/-- **A merge over readable rows is built.** -/
theorem queueSources_ok (sqlite : Sqlite) {d : RecordDirectory} {query : Query}
    {sources : List RecordSource} {rows : List Located} {merge : Merge} {count : ℕ}
    (h : merge.Within memory snapshot key share count)
    (hbudget : (count + sources.length) * key ≤ budget)
    (hrows : matchingRows d snapshot query sources = .ok rows)
    (hreadable : ∀ located ∈ rows, located.Readable memory snapshot key share) :
    ∃ merge', queueSources sqlite memory budget d snapshot query sources merge = .ok merge' ∧
      merge'.Within memory snapshot key share (count + sources.length) := by
  induction sources generalizing rows merge count with
  | nil => exact ⟨merge, rfl, h⟩
  | cons source sources ih =>
    obtain ⟨own, hown, hrows⟩ := bind_eq_ok.mp hrows
    obtain ⟨others, hothers, hrows⟩ := bind_eq_ok.mp hrows
    cases hrows
    rw [List.length_cons, Nat.add_comm sources.length, ← Nat.add_assoc] at hbudget ⊢
    have hsorted : ∀ row ∈ sqlite.orderBy query.sort own,
        Located.Readable memory snapshot key share ⟨source, row⟩ := by
      intro row hmem
      apply hreadable
      apply List.mem_append_left
      exact List.mem_map_of_mem ((sqlite.perm query.sort own).mem_iff.mp hmem)
    have hnextBudget : (count + 1) * key ≤ budget :=
      (Nat.mul_le_mul_right key (Nat.le_add_right _ _)).trans hbudget
    obtain ⟨next, hnext, hwithin⟩ := queueRows_ok query.sort h hnextBudget hsorted
    obtain ⟨merge', hmerge', hwithin'⟩ := ih hwithin hbudget hothers
      fun located hmem => hreadable located (List.mem_append_right _ hmem)
    refine ⟨merge', ?_, hwithin'⟩
    unfold queueSources
    rw [hown, ok_bind, hnext, ok_bind, hmerge']

end Merge

namespace RecordQueryService

variable {memory : MemorySizes} {memoryBudget : ℕ} {snapshot : RecordSnapshot} {key share : ℕ}

theorem add_ok (memory : MemorySizes) (memoryBudget : ℕ) (id : ℤ) (page : Page)
    {record : Record} {schema : Schema}
    (hschema : snapshot.schemas.lookup record.schemaVersion.toNat = some schema)
    (h : page.bytes + (memory.schemaBytes schema + (memory.recordMemoryBytes record + sizeofId)) ≤
      memoryBudget / 16) :
    ∃ page', page.add memory memoryBudget snapshot record id = .ok page' ∧
      page'.bytes ≤
        page.bytes + (memory.schemaBytes schema + (memory.recordMemoryBytes record + sizeofId)) := by
  have hadd : ∀ (page : Page) (size : ℕ), page.bytes + size ≤ memoryBudget / 16 →
      page.addBytes memoryBudget size = .ok { page with bytes := page.bytes + size } := by
    intro page size hsize
    unfold Page.addBytes
    rw [invalid_of_not (by omega)]
    rfl
  unfold Page.add Page.addSchema
  split
  · rw [ok_bind, hadd page _ (by omega)]
    refine ⟨_, rfl, ?_⟩
    dsimp only
    omega
  · rw [hschema]
    dsimp only
    rw [hadd page _ (by omega)]
    simp only [ok_bind, pure_bind]
    rw [hadd _ _ (by dsimp only; omega)]
    refine ⟨_, rfl, ?_⟩
    dsimp only
    omega

/-- **A page over readable rows is read.** -/
theorem collect_ok (sort : Option FieldSort) {limit count : ℕ} {page : Page} {merge : Merge}
    (h : merge.Within memory snapshot key share count) (hbudget : count * key ≤ memoryBudget)
    (hpage : page.bytes + limit * share ≤ memoryBudget / 16) :
    ∃ result, collect memory memoryBudget snapshot sort limit page merge = .ok result := by
  induction limit generalizing page merge with
  | zero => exact ⟨_, rfl⟩
  | succ limit ih =>
    unfold collect
    split
    · exact ⟨_, rfl⟩
    · rename_i top rest hheap
      have htop : top.located.Readable memory snapshot key share :=
        h.readable top (hheap ▸ List.mem_cons_self) _ List.mem_cons_self
      obtain ⟨record, schema, hrecord, hschema, hshare⟩ := htop.pageFits
      have hcurrent : Merge.currentOf snapshot top = .ok (record, top.located.number) := by
        have htopRecord : top.record snapshot = .ok record := hrecord
        unfold Merge.currentOf
        rw [htopRecord, ok_bind, Merge.globalId_ok htop]
        rfl
      rw [Nat.succ_mul] at hpage
      obtain ⟨added, hadded, hbytes⟩ := add_ok memory memoryBudget top.located.number page
        hschema (by omega)
      obtain ⟨next, hnext, hwithin⟩ := Merge.advance_ok sort h hbudget
      rw [hcurrent, ok_bind]
      dsimp only
      rw [hadded, ok_bind, hnext, ok_bind]
      exact ih hwithin (by omega)

/-- The pages of `n` rows up to the page `last`, as parts of one list of rows. -/
structure PagesOf (snapshot : RecordSnapshot) (n last : ℕ) (pages : ℕ → Completion)
    (merged : List Located) : Prop where
  window : ∀ k ≤ last,
    ((merged.drop (k * n)).take n).mapM (Located.found snapshot) = .ok (found (pages k))
  more : ∀ k ≤ last, (pages k).more = true ↔ (k + 1) * n < merged.length
  whole : (pages last).more = false →
    merged.mapM (Located.found snapshot) =
      .ok ((List.range (last + 1)).flatMap fun k => found (pages k))

/-- **The pages of a query.**  While its pages are read, the volumes of a snapshot may grow
past their cut-offs.  The merge gives out every matching row once, in the order of the query;
a returned page is the part of it after its offset, up to its limit, and says whether rows
are left; pages up to one that leaves none make up the whole.  Where the rows are readable
and the budgets suffice, every page is returned. -/
theorem query_pages (sqlite : Sqlite) (memory : MemorySizes) (memoryBudget : ℕ)
    (snapshot : RecordSnapshot) (request : Query) (d : ℕ → RecordDirectory) (n last : ℕ)
    (hfrozen : ∀ k ≤ last, Frozen snapshot (d 0) (d k)) :
    (∀ pages : ℕ → Completion,
      (∀ k ≤ last, query sqlite memory memoryBudget (d k) snapshot
        { request with offset := k * n, limit := n } = .ok (pages k)) →
      ∃ (merge : Merge) (rows merged : List Located),
        Merge.create sqlite memory memoryBudget (d 0) snapshot request = .ok merge ∧
        (∀ j later, merge.skip memory memoryBudget request.sort j = .ok later →
          later.heap.head?.map Cursor.located = merged[j]?) ∧
        Merge.matchingRows (d 0) snapshot request snapshot.sources = .ok rows ∧
        merged.Perm rows ∧ merged.Pairwise (Merge.InOrder request.sort) ∧
        PagesOf snapshot n last pages merged) ∧
    ∀ rows key share,
      Merge.matchingRows (d 0) snapshot request snapshot.sources = .ok rows →
      (∀ located ∈ rows, located.Readable memory snapshot key share) →
      snapshot.sources.length * key ≤ memoryBudget → n * share ≤ memoryBudget / 16 →
      ∀ k ≤ last, ∃ page, query sqlite memory memoryBudget (d k) snapshot
        { request with offset := k * n, limit := n } = .ok page := by
  constructor
  · intro pages hpages
    obtain ⟨merge, hmerge, -, -⟩ := query_eq_ok (hpages 0 (Nat.zero_le _))
    rw [create_of_frozen (hfrozen 0 (Nat.zero_le _))] at hmerge
    obtain ⟨hsorted, rows, hrows, hperm⟩ := Merge.create_eq_ok hmerge
    have hpage : ∀ k ≤ last,
        (((merge.output request.sort).drop (k * n)).take n).mapM (Located.found snapshot) =
          .ok (found (pages k)) ∧
        ((pages k).more = true ↔ (k + 1) * n < (merge.output request.sort).length) := by
      intro k hk
      obtain ⟨merge', hmerge', hfound, hmore⟩ := query_eq_ok (hpages k hk)
      rw [create_of_frozen (hfrozen k hk), hmerge] at hmerge'
      cases hmerge'
      rw [Nat.succ_mul]
      exact ⟨hfound, hmore⟩
    refine ⟨merge, rows, merge.output request.sort, hmerge, ?_, hrows, hperm, hsorted,
      fun k hk => (hpage k hk).1, fun k hk => (hpage k hk).2, ?_⟩
    · intro j later hlater
      rw [← Merge.head_output, Merge.output_skip hlater, List.head?_drop]
    · intro hmore
      have hlength : ¬ (last + 1) * n < (merge.output request.sort).length := by
        rw [← (hpage last (Nat.le_refl _)).2, hmore]
        exact Bool.false_ne_true
      rw [← List.take_of_length_le (Nat.not_lt.mp hlength)]
      exact mapM_windows fun k hk => (hpage k (Nat.le_of_lt_succ hk)).1
  · intro rows key share hrows hreadable hkeys hshare k hk
    have hempty : Merge.Within memory snapshot key share 0 {} :=
      ⟨rfl, Nat.le_refl _, fun _ hmem => absurd hmem List.not_mem_nil⟩
    have hbudget : (0 + snapshot.sources.length) * key ≤ memoryBudget := by
      rwa [Nat.zero_add]
    have hfits : (({} : Page).bytes) + n * share ≤ memoryBudget / 16 := by
      rwa [Nat.zero_add]
    obtain ⟨merge, hmerge, hwithin⟩ := Merge.queueSources_ok sqlite hempty hbudget hrows hreadable
    obtain ⟨skipped, hskipped, hwithin⟩ := Merge.skip_ok request.sort (k * n) hwithin hbudget
    obtain ⟨⟨page, left⟩, hpage⟩ := collect_ok request.sort hwithin hbudget hfits
    refine ⟨{ snapshot := snapshot.token, records := page.records, rowIds := page.rowIds,
              schemas := page.schemas, more := left.valid }, ?_⟩
    unfold query
    rw [create_of_frozen (hfrozen k hk)]
    unfold Merge.create
    rw [hmerge, ok_bind]
    dsimp only
    rw [hskipped, ok_bind, hpage]
    rfl

/-! ### Two volumes, read in two pages -/

def sampleSchema : Schema := { dataset := text "d", fields := [{ name := text "v", type := .int64 }] }

def sampleRow (id : ℤ) (receivedAtUs v : Int64) : RecordRow where
  id := id
  record :=
    { protocol := text "p"
      dataset := text "d"
      device := []
      receivedAtUs := receivedAtUs
      schemaVersion := 1
      values := [.int64 v] }

def sampleVolume (state : VolumeState) (records : List RecordRow) : VolumeDirectory where
  database := .holds {
    protocol := text "p"
    volumeId := ""
    origin := .recording
    state := state
    recordCount := records.length
    schemas := [(1, sampleSchema)]
    records := records }

/-- The second page is read after one more append. -/
def sampleDirectory (later : List RecordRow) : RecordDirectory where
  volumes := fun path =>
    if path = "a" then some (sampleVolume .active ([sampleRow 1 10 5, sampleRow 2 30 7] ++ later))
    else if path = "b" then some (sampleVolume .sealed [sampleRow 1 20 7])
    else none

def sampleSnapshot : RecordSnapshot where
  sources := [{ path := "a", cutoff := 2, schemaIds := [(1, 1)] },
    { path := "b", cutoff := 1, idBase := 40, schemaIds := [(1, 1)] }]
  schemas := [(1, sampleSchema)]

def sampleRequest : Query := { sort := some { field := text "v", descending := true } }

def sampleSqlite : Sqlite where
  orderBy := fun sort rows => rows.insertionSort fun a b => ¬ Row.Before sort b a
  perm := fun _ rows => List.perm_insertionSort _ rows
  sorted := fun sort rows => by
    have total := (Row.before_weakOrder sort).total
    have trans := (Row.before_weakOrder sort).isTrans
    exact List.pairwise_insertionSort _ rows

def sampleMemory : MemorySizes where
  cursor := 1
  capacity := List.length
  schemaBytes := fun _ => 1
  recordMemoryBytes := fun _ => 1

def samplePage (k : ℕ) : Except String Completion :=
  query sampleSqlite sampleMemory 1024
    (sampleDirectory (if k = 0 then [] else [sampleRow 3 40 9])) sampleSnapshot
    { sampleRequest with offset := k * 2, limit := 2 }

theorem frozen_sample (k : ℕ) : Frozen sampleSnapshot (sampleDirectory [])
    (sampleDirectory (if k = 0 then [] else [sampleRow 3 40 9])) := by
  intro source hsource
  rcases List.mem_cons.mp hsource with rfl | hsource
  · right
    refine ⟨_, _, rfl, rfl, _, _, if k = 0 then [] else [sampleRow 3 40 9], rfl, rfl, rfl, ?_, ?_⟩
    · simp
    · intro row hrow
      split at hrow
      · cases hrow
      · rw [List.mem_singleton.mp hrow]
        decide
  · rw [List.mem_singleton.mp hsource]
    exact .inl rfl

/-- A value sorted downwards over two volumes with equal values in both, in pages of two. -/
theorem query_pages_twoVolumes :
    ∃ (pages : ℕ → Completion) (merged : List Located),
      (∀ k ≤ 1, samplePage k = .ok (pages k)) ∧ PagesOf sampleSnapshot 2 1 pages merged ∧
        (pages 0).rowIds = [41, 2] ∧ (pages 0).more = true ∧
          (pages 1).rowIds = [1] ∧ (pages 1).more = false := by
  have hreturned : ∀ k ≤ 1, (samplePage k).isOk = true := by decide +kernel
  have hpages : ∀ k ≤ 1, samplePage k = .ok ((samplePage k).toOption.getD { snapshot := 0 }) := by
    intro k hk
    have hk := hreturned k hk
    cases hpage : samplePage k with
    | error message =>
      rw [hpage] at hk
      cases hk
    | ok page => rfl
  obtain ⟨-, -, merged, -, -, -, -, -, hmerged⟩ :=
    (query_pages sampleSqlite sampleMemory 1024 sampleSnapshot sampleRequest
      (fun k => sampleDirectory (if k = 0 then [] else [sampleRow 3 40 9])) 2 1
      fun k _ => frozen_sample k).1 _ hpages
  exact ⟨_, merged, hpages, hmerged, by decide +kernel, by decide +kernel, by decide +kernel,
    by decide +kernel⟩

end RecordQueryService

end ProtoScope.Storage
