/-
Pages of a query are pages of one sorted list.

The queue of the cursors, read as lists of rows, is a queue of sorted lists; every turn of
the merge is a turn of it.  Its whole output has every matching row once, in the order of the
query, and depends neither on the offset nor on the limit: a page is the part of it they cut
out, and pages that follow one another make it up again.
-/
import ProtoScope.Library.KWayMerge
import ProtoScope.Proofs.Storage.RecordOrder

namespace ProtoScope.Storage

open ProtoScope.Data ProtoScope.Library KWayMerge

namespace Merge

/-! ### The queue as lists of rows -/

def InOrder (sort : Option FieldSort) (a b : Located) : Prop := ¬ Located.Precedes sort b a

instance (sort : Option FieldSort) : DecidableRel (InOrder sort) :=
  fun a b => inferInstanceAs (Decidable (¬ Located.Precedes sort b a))

instance (sort : Option FieldSort) : Std.Total (InOrder sort) :=
  (Located.precedes_weakOrder sort).total

instance (sort : Option FieldSort) : IsTrans Located (InOrder sort) :=
  (Located.precedes_weakOrder sort).isTrans

/-- The rows a cursor still has, and the queue of them. -/
def rowsOf (cursor : Cursor) : Located × List Located :=
  (cursor.located, cursor.rest.map (Located.mk cursor.source))

def waiting (merge : Merge) : List (Located × List Located) := merge.heap.map rowsOf

variable {memory : MemorySizes} {budget : ℕ} {sort : Option FieldSort}

theorem push_eq_ok {cursor : Cursor} {heap heap' : List Cursor}
    (h : push sort cursor heap = .ok heap') :
    heap'.map rowsOf =
      (heap.map rowsOf).orderedInsert (fun a b => InOrder sort a.1 b.1) (rowsOf cursor) := by
  induction heap generalizing heap' with
  | nil =>
    cases h
    rfl
  | cons first heap ih =>
    obtain ⟨earlier, hearlier, h⟩ := bind_eq_ok.mp h
    have hiff := before_eq_ok hearlier
    cases earlier with
    | true =>
      obtain ⟨rest, hrest, h⟩ := bind_eq_ok.mp h
      cases h
      have hnot : ¬ InOrder sort (rowsOf cursor).1 (rowsOf first).1 := not_not.mpr (hiff.mp rfl)
      rw [List.map_cons, List.map_cons, ih hrest]
      exact (List.orderedInsert_of_not_le (r := fun a b : Located × List Located => InOrder sort a.1 b.1) _ hnot).symm
    | false =>
      cases h
      have hle : InOrder sort (rowsOf cursor).1 (rowsOf first).1 :=
        fun hbefore => Bool.false_ne_true (hiff.mpr hbefore)
      exact (List.orderedInsert_cons_of_le (r := fun a b : Located × List Located => InOrder sort a.1 b.1) _ hle).symm

variable {merge merge' : Merge}

theorem queueRows_eq_ok {source : RecordSource} {rows : List Row}
    (h : queueRows memory budget sort source rows merge = .ok merge') :
    merge'.waiting =
      KWayMerge.push (InOrder sort) (rows.map (Located.mk source)) merge.waiting := by
  cases rows with
  | nil =>
    cases h
    rfl
  | cons current rest =>
    obtain ⟨bytes, -, h⟩ := bind_eq_ok.mp h
    obtain ⟨heap, hheap, h⟩ := bind_eq_ok.mp h
    cases h
    exact push_eq_ok hheap

theorem advance_eq_ok (h : merge.advance memory budget sort = .ok merge') :
    merge'.waiting = KWayMerge.advance (InOrder sort) merge.waiting := by
  obtain ⟨bytes, _ | ⟨top, heap⟩⟩ := merge
  · cases h
    rfl
  · exact queueRows_eq_ok h

theorem waiting_eq_nil : merge.waiting = [] ↔ merge.heap = [] :=
  List.map_eq_nil_iff

theorem iterate_advance_nil (n : ℕ) :
    (KWayMerge.advance (InOrder sort))^[n] [] = [] := by
  induction n with
  | zero => rfl
  | succ n ih => exact ih

theorem skip_eq_ok {n : ℕ} (h : merge.skip memory budget sort n = .ok merge') :
    merge'.waiting = (KWayMerge.advance (InOrder sort))^[n] merge.waiting := by
  induction n generalizing merge with
  | zero =>
    cases h
    rfl
  | succ n ih =>
    unfold skip at h
    split at h
    · obtain ⟨next, hnext, h⟩ := bind_eq_ok.mp h
      rw [ih h, advance_eq_ok hnext, Function.iterate_succ_apply]
    · rename_i hinvalid
      have hheap : merge.heap = [] := by simpa [valid] using hinvalid
      cases h
      rw [waiting_eq_nil.mpr hheap, iterate_advance_nil]

/-! ### The matching rows -/

/-- The matching rows of all sources, source after source. -/
def matchingRows (d : RecordDirectory) (snapshot : RecordSnapshot) (query : Query) :
    List RecordSource → Except String (List Located)
  | [] => .ok []
  | source :: sources => do
    let rows ← sourceRows d snapshot query source
    return rows.map (Located.mk source) ++ (← matchingRows d snapshot query sources)

theorem pairwise_orderBy (sqlite : Sqlite) (source : RecordSource) (rows : List Row) :
    ((sqlite.orderBy sort rows).map (Located.mk source)).Pairwise (InOrder sort) := by
  rw [List.pairwise_map]
  apply (sqlite.sorted sort rows).imp
  intro a b h hbefore
  exact h ((Located.precedes_iff sort source b a).mp hbefore)

/-- **The queue is ordered, and holds every matching row once.** -/
theorem queueSources_eq_ok {sqlite : Sqlite} {d : RecordDirectory} {snapshot : RecordSnapshot}
    {query : Query} {sources : List RecordSource}
    (h : queueSources sqlite memory budget d snapshot query sources merge = .ok merge')
    (hordered : KWayMerge.Ordered (InOrder query.sort) merge.waiting) :
    KWayMerge.Ordered (InOrder query.sort) merge'.waiting ∧
      ∃ rows, matchingRows d snapshot query sources = .ok rows ∧
        (items merge'.waiting).Perm (rows ++ items merge.waiting) := by
  induction sources generalizing merge with
  | nil =>
    cases h
    exact ⟨hordered, [], rfl, .refl _⟩
  | cons source sources ih =>
    obtain ⟨rows, hrows, h⟩ := bind_eq_ok.mp h
    obtain ⟨next, hnext, h⟩ := bind_eq_ok.mp h
    have hwaiting := queueRows_eq_ok hnext
    have hnextOrdered : KWayMerge.Ordered (InOrder query.sort) next.waiting := by
      rw [hwaiting]
      exact .push (pairwise_orderBy sqlite source rows) hordered
    obtain ⟨hordered', others, hothers, hperm⟩ := ih h hnextOrdered
    refine ⟨hordered', rows.map (Located.mk source) ++ others, ?_, ?_⟩
    · unfold matchingRows
      rw [hrows, ok_bind, hothers]
      rfl
    · have hpushed := items_push (InOrder query.sort)
        ((sqlite.orderBy query.sort rows).map (Located.mk source)) merge.waiting
      rw [← hwaiting] at hpushed
      have hsorted := (sqlite.perm query.sort rows).map (Located.mk source)
      have hnext : (items next.waiting).Perm
          (rows.map (Located.mk source) ++ items merge.waiting) :=
        hpushed.trans (hsorted.append_right _)
      apply (hperm.trans (hnext.append_left others)).trans
      rw [← List.append_assoc]
      exact List.perm_append_comm.append_right _

/-- What all cursors of a merge give out. -/
def output (sort : Option FieldSort) (merge : Merge) : List Located :=
  KWayMerge.output (InOrder sort) merge.waiting

theorem head_output (merge : Merge) :
    (merge.output sort).head? = merge.heap.head?.map Cursor.located := by
  obtain ⟨bytes, _ | ⟨top, heap⟩⟩ := merge
  · simp [output, waiting, KWayMerge.output]
  · simp [output, waiting, rowsOf, KWayMerge.output]

theorem output_advance (h : merge.advance memory budget sort = .ok merge') :
    merge'.output sort = (merge.output sort).tail := by
  unfold output
  rw [advance_eq_ok h, KWayMerge.output_advance]

theorem output_skip {n : ℕ} (h : merge.skip memory budget sort n = .ok merge') :
    merge'.output sort = (merge.output sort).drop n := by
  unfold output
  rw [skip_eq_ok h, KWayMerge.output_iterate]

theorem valid_iff (sort : Option FieldSort) (merge : Merge) : merge.valid = true ↔ merge.output sort ≠ [] := by
  unfold output valid
  rw [Ne, output_eq_nil, waiting_eq_nil]
  simp

/-- **The output of a fresh merge is every matching row once, in the order of the query.** -/
theorem create_eq_ok {sqlite : Sqlite} {d : RecordDirectory} {snapshot : RecordSnapshot}
    {query : Query} (h : create sqlite memory budget d snapshot query = .ok merge) :
    (merge.output query.sort).Pairwise (InOrder query.sort) ∧
      ∃ rows, matchingRows d snapshot query snapshot.sources = .ok rows ∧
        (merge.output query.sort).Perm rows := by
  obtain ⟨hordered, rows, hrows, hperm⟩ := queueSources_eq_ok h (.nil _)
  refine ⟨hordered.output, rows, hrows, ?_⟩
  apply (output_perm _ _).trans
  simpa [waiting, items] using hperm

end Merge

/-! ### Pages -/

/-- What a page gives for a row: the record and its id. -/
def Located.found (snapshot : RecordSnapshot) (located : Located) : Except String (Record × ℤ) :=
  Merge.currentOf snapshot { source := located.source, current := located.row, rest := [] }

namespace RecordQueryService

variable {memory : MemorySizes} {memoryBudget : ℕ} {snapshot : RecordSnapshot}

def Page.found (page : Page) : List (Record × ℤ) := page.records.zip page.rowIds

def Page.Even (page : Page) : Prop := page.records.length = page.rowIds.length

theorem Page.even_empty : Page.Even {} := rfl

theorem addBytes_eq_ok {size : ℕ} {page page' : Page}
    (h : page.addBytes memoryBudget size = .ok page') :
    page'.records = page.records ∧ page'.rowIds = page.rowIds := by
  obtain ⟨-, h⟩ := invalid_of_ok h
  cases h
  exact ⟨rfl, rfl⟩

theorem addSchema_eq_ok {version : ℕ} {page page' : Page}
    (h : page.addSchema memory memoryBudget snapshot version = .ok page') :
    page'.records = page.records ∧ page'.rowIds = page.rowIds := by
  unfold Page.addSchema at h
  split at h
  · cases h
    exact ⟨rfl, rfl⟩
  · split at h
    · cases h
    · obtain ⟨added, hadded, h⟩ := bind_eq_ok.mp h
      cases h
      obtain ⟨hrecords, hrowIds⟩ := addBytes_eq_ok hadded
      exact ⟨hrecords, hrowIds⟩

theorem add_eq_ok {record : Record} {id : ℤ} {page page' : Page} (heven : page.Even)
    (h : page.add memory memoryBudget snapshot record id = .ok page') :
    page'.Even ∧ page'.found = page.found ++ [(record, id)] := by
  obtain ⟨known, hknown, h⟩ := bind_eq_ok.mp h
  obtain ⟨counted, hcounted, h⟩ := bind_eq_ok.mp h
  cases h
  obtain ⟨hrecords, hrowIds⟩ := addSchema_eq_ok hknown
  obtain ⟨hrecords', hrowIds'⟩ := addBytes_eq_ok hcounted
  unfold Page.Even Page.found
  dsimp only
  rw [hrecords', hrowIds', hrecords, hrowIds]
  constructor
  · rw [List.length_append, List.length_append]
    exact congrArg (· + 1) heven
  · exact List.zip_append heven

/-- **A page takes the next rows of the output, up to the limit.** -/
theorem collect_eq_ok {sort : Option FieldSort} {limit : ℕ} {page page' : Page}
    {merge merge' : Merge} (heven : page.Even)
    (h : collect memory memoryBudget snapshot sort limit page merge = .ok (page', merge')) :
    page'.Even ∧ merge'.output sort = (merge.output sort).drop limit ∧
      ∃ rows, ((merge.output sort).take limit).mapM (Located.found snapshot) = .ok rows ∧
        page'.found = page.found ++ rows := by
  induction limit generalizing page merge with
  | zero =>
    cases h
    exact ⟨heven, rfl, [], rfl, (List.append_nil _).symm⟩
  | succ limit ih =>
    unfold collect at h
    split at h
    · rename_i hheap
      have hnil : merge.output sort = [] := by
        simp [Merge.output, Merge.waiting, hheap, KWayMerge.output]
      cases h
      rw [hnil]
      exact ⟨heven, rfl, [], rfl, (List.append_nil _).symm⟩
    · rename_i top rest hheap
      obtain ⟨⟨record, id⟩, hcurrent, h⟩ := bind_eq_ok.mp h
      obtain ⟨added, hadded, h⟩ := bind_eq_ok.mp h
      obtain ⟨next, hnext, h⟩ := bind_eq_ok.mp h
      obtain ⟨hevenAdded, hfound⟩ := add_eq_ok heven hadded
      obtain ⟨heven', houtput, rows, hrows, hfound'⟩ := ih hevenAdded h
      have htop : (merge.output sort).head? = some top.located := by
        rw [Merge.head_output, hheap]
        rfl
      obtain ⟨others, hmerge⟩ := List.head?_eq_some_iff.mp htop
      rw [Merge.output_advance hnext, hmerge, List.tail_cons] at houtput hrows
      rw [hmerge, List.drop_succ_cons, List.take_succ_cons]
      refine ⟨heven', houtput, (record, id) :: rows, ?_, ?_⟩
      · have htopFound : top.located.found snapshot = .ok (record, id) := hcurrent
        rw [List.mapM_cons, htopFound, ok_bind, hrows]
        rfl
      · rw [hfound', hfound, List.append_assoc]
        rfl

def found (completion : Completion) : List (Record × ℤ) :=
  completion.records.zip completion.rowIds

variable {d : RecordDirectory} {request : Query}

/-- What a returned page is, in terms of the whole output. -/
theorem query_eq_ok {sqlite : Sqlite} {completion : Completion}
    (h : query sqlite memory memoryBudget d snapshot request = .ok completion) :
    ∃ merge, Merge.create sqlite memory memoryBudget d snapshot request = .ok merge ∧
      (((merge.output request.sort).drop request.offset).take request.limit).mapM
        (Located.found snapshot) = .ok (found completion) ∧
      (completion.more = true ↔
        request.offset + request.limit < (merge.output request.sort).length) := by
  obtain ⟨merge, hmerge, h⟩ := bind_eq_ok.mp h
  obtain ⟨skipped, hskipped, h⟩ := bind_eq_ok.mp h
  obtain ⟨⟨page, left⟩, hpage, h⟩ := bind_eq_ok.mp h
  cases h
  obtain ⟨-, hleft, rows, hrows, hfound⟩ := collect_eq_ok Page.even_empty hpage
  rw [Merge.output_skip hskipped] at hleft hrows
  refine ⟨merge, hmerge, ?_, ?_⟩
  · have hpageRows : page.found = rows := hfound
    rw [hrows, ← hpageRows]
    rfl
  · dsimp only
    rw [Merge.valid_iff request.sort, hleft, List.drop_drop, Ne, List.drop_eq_nil_iff]
    omega

/-! ### Pages that follow one another -/

/-- The database file of a volume that has only got records past a cut-off. -/
def GrownPast (cutoff : ℤ) (file file' : DatabaseFile VolumeDatabase) : Prop :=
  ∃ database database' later, file = .holds database ∧ file' = .holds database' ∧
    database'.schemas = database.schemas ∧ database'.records = database.records ++ later ∧
      ∀ row ∈ later, cutoff < row.id

/-- The volumes of a snapshot while its pages are read. -/
def Frozen (snapshot : RecordSnapshot) (d d' : RecordDirectory) : Prop :=
  ∀ source ∈ snapshot.sources, d'.volumes source.path = d.volumes source.path ∨
    ∃ directory directory', d.volumes source.path = some directory ∧
      d'.volumes source.path = some directory' ∧
        GrownPast source.cutoff directory.database directory'.database

theorem mapM_selectRow_later {schemas : List (ℕ × Schema)} {source : RecordSource}
    {later : List RecordRow} (h : ∀ row ∈ later, source.cutoff < row.id) :
    later.mapM (Cursor.selectRow schemas source request) = .ok (later.map fun _ => none) := by
  induction later with
  | nil => rfl
  | cons row later ih =>
    have hrow : Cursor.selectRow schemas source request row = .ok none := by
      have hid : ¬ row.id ≤ source.cutoff := Int.not_le.mpr (h row List.mem_cons_self)
      unfold Cursor.selectRow
      exact if_pos (by simp [Cursor.selects, hid])
    rw [List.mapM_cons, hrow, ok_bind, ih fun row hmem => h row (List.mem_cons_of_mem _ hmem)]
    rfl

/-- Records past the cut-off do not change the answer of a volume. -/
theorem select_of_grown {d' : RecordDirectory} {source : RecordSource}
    {directory directory' : VolumeDirectory} (hd : d.volumes source.path = some directory)
    (hd' : d'.volumes source.path = some directory')
    (h : GrownPast source.cutoff directory.database directory'.database) :
    Cursor.select d' source request = Cursor.select d source request := by
  obtain ⟨database, database', later, hfile, hfile', hschemas, hrecords, hlater⟩ := h
  unfold Cursor.select
  rw [hd, hd']
  dsimp only
  rw [hfile, hfile']
  dsimp only
  rw [hschemas, hrecords, List.mapM_append, mapM_selectRow_later hlater]
  cases database.records.mapM (Cursor.selectRow database.schemas source request) with
  | error message => rfl
  | ok rows =>
    simp only [ok_bind, pure_bind]
    rw [List.reduceOption_append]
    simp [List.reduceOption]

theorem sourceRows_of_frozen {d' : RecordDirectory} {source : RecordSource}
    (h : Frozen snapshot d d') (hmem : source ∈ snapshot.sources) (offset limit : ℕ) :
    Merge.sourceRows d' snapshot { request with offset, limit } source =
      Merge.sourceRows d snapshot request source := by
  have hselect : Cursor.select d' source request = Cursor.select d source request := by
    rcases h source hmem with hsame | ⟨directory, directory', hd, hd', hgrown⟩
    · unfold Cursor.select
      rw [hsame]
    · exact select_of_grown hd hd' hgrown
  unfold Merge.sourceRows
  rw [← hselect]
  rfl

/-- **The merge of a page is the same whenever it is read, at whatever offset.** -/
theorem create_of_frozen {sqlite : Sqlite} {d' : RecordDirectory} (h : Frozen snapshot d d')
    (offset limit : ℕ) :
    Merge.create sqlite memory memoryBudget d' snapshot { request with offset, limit } =
      Merge.create sqlite memory memoryBudget d snapshot request := by
  have hsources : ∀ sources merge, (∀ source ∈ sources, source ∈ snapshot.sources) →
      Merge.queueSources sqlite memory memoryBudget d' snapshot { request with offset, limit }
        sources merge =
      Merge.queueSources sqlite memory memoryBudget d snapshot request sources merge := by
    intro sources
    induction sources with
    | nil =>
      intro merge _
      rfl
    | cons source sources ih =>
      intro merge hmem
      unfold Merge.queueSources
      rw [sourceRows_of_frozen h (hmem source List.mem_cons_self)]
      apply bind_congr
      intro rows
      apply bind_congr
      intro next
      exact ih next fun source hsource => hmem source (List.mem_cons_of_mem _ hsource)
  exact hsources _ _ fun _ hmem => hmem

/-- What pages that follow one another give, page after page. -/
theorem mapM_windows {f : Located → Except String (Record × ℤ)} {rows : List Located} {n : ℕ}
    {pages : ℕ → List (Record × ℤ)} {count : ℕ}
    (h : ∀ k < count, ((rows.drop (k * n)).take n).mapM f = .ok (pages k)) :
    (rows.take (count * n)).mapM f = .ok ((List.range count).flatMap pages) := by
  induction count with
  | zero =>
    rw [Nat.zero_mul, List.take_zero]
    rfl
  | succ count ih =>
    rw [Nat.succ_mul, List.take_add, List.mapM_append, ih fun k hk => h k (Nat.lt_succ_of_lt hk),
      h count (Nat.lt_succ_self count), List.range_succ, List.flatMap_append]
    simp only [ok_bind, List.flatMap_cons, List.flatMap_nil, List.append_nil]
    rfl

end RecordQueryService

end ProtoScope.Storage
