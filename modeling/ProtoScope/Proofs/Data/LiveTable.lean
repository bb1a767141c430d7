/-
What the live table keeps, and what its pages show.

The rows are the longest suffix of the records taken so far that is within both limits, the
byte count is their total, and their numbers go up.  A view that is accepted decides every row,
and its order is total on them: sort column, time, number.  So the pages that are read one
after another, each asking for the next while there is more, are the sorted rows cut in pieces.
-/
import Mathlib.Data.List.Sort
import ProtoScope.Data.LiveTable
import ProtoScope.Library.LongestSuffix
import ProtoScope.Proofs.Storage.RecordOrder

namespace ProtoScope.Data

open ProtoScope.Library
open ProtoScope.Storage (SortKey sortable)

namespace LiveTable

variable {schema : Schema}

/-! ### Limits -/

def totalBytes (rows : List (Entry schema)) : ℕ := (rows.map (·.bytes)).sum

/-- Both limits of the table. -/
def Within (maxRows maxBytes : ℕ) (rows : List (Entry schema)) : Prop :=
  rows.length ≤ maxRows ∧ totalBytes rows ≤ maxBytes

instance (maxRows maxBytes : ℕ) : DecidablePred (@Within schema maxRows maxBytes) :=
  fun _ => inferInstanceAs (Decidable (_ ∧ _))

@[simp] theorem totalBytes_cons (entry : Entry schema) (rows : List (Entry schema)) :
    totalBytes (entry :: rows) = entry.bytes + totalBytes rows := by
  simp [totalBytes]

@[simp] theorem totalBytes_append (rows rows' : List (Entry schema)) :
    totalBytes (rows ++ rows') = totalBytes rows + totalBytes rows' := by
  simp [totalBytes]

theorem Within.sublist {maxRows maxBytes : ℕ} {rows other : List (Entry schema)}
    (hother : other.Sublist rows) (h : Within maxRows maxBytes rows) :
    Within maxRows maxBytes other := by
  refine ⟨hother.length_le.trans h.1, le_trans ?_ h.2⟩
  exact (hother.map _).sum_le_sum fun _ _ => Nat.zero_le _

/-- **The oldest rows leave until the new one fits**, and the count of bytes with them. -/
theorem evict_eq {maxRows maxBytes : ℕ} {entry : Entry schema} {rows : List (Entry schema)}
    (h : totalBytes rows ≤ maxBytes) :
    evict maxRows maxBytes entry.bytes rows (totalBytes rows) =
      (dropToFit (Within maxRows maxBytes) entry rows,
        totalBytes (dropToFit (Within maxRows maxBytes) entry rows)) := by
  induction rows with
  | nil => rfl
  | cons front rows ih =>
    rw [totalBytes_cons] at h
    have hfits : Within maxRows maxBytes (front :: rows ++ [entry]) ↔
        ¬ (maxRows ≤ (front :: rows).length ∨
          maxBytes - totalBytes (front :: rows) < entry.bytes) := by
      unfold Within
      rw [totalBytes_append, totalBytes_cons, totalBytes_cons, List.length_append]
      simp only [List.length_cons, List.length_nil, totalBytes, List.map_nil, List.sum_nil]
      simp only [totalBytes] at h
      omega
    unfold evict dropToFit
    by_cases hevict : maxRows ≤ (front :: rows).length ∨
        maxBytes - totalBytes (front :: rows) < entry.bytes
    · rw [if_pos hevict, if_neg (by rw [hfits]; exact not_not.mpr hevict), totalBytes_cons,
        Nat.add_sub_cancel_left]
      exact ih (by omega)
    · rw [if_neg hevict, if_pos (hfits.mpr hevict)]

/-! ### Records that are taken -/

/-- A record that is appended, with its capacities. -/
structure Offer where
  record : Record
  capacity : RecordCapacity

/-- The row a record becomes, if it is taken. -/
def Offer.entry (sizes : RowSizes) (maxBytes id : ℕ) (offer : Offer) : Option (Entry schema) :=
  match valid : validateRecord schema offer.record with
  | .error _ => none
  | .ok () =>
    match recordMemoryBytes sizes offer.capacity offer.record with
    | .error _ => none
    | .ok bytes => if maxBytes < bytes then none else some ⟨⟨id, offer.record, valid⟩, bytes⟩

/-- The rows of all records that are taken, numbered from `id`. -/
def accepted (sizes : RowSizes) (maxBytes : ℕ) : ℕ → List Offer → List (Entry schema)
  | _, [] => []
  | id, offer :: offers =>
    match offer.entry sizes maxBytes id with
    | none => accepted sizes maxBytes id offers
    | some entry => entry :: accepted sizes maxBytes (id + 1) offers

/-- A record that throws leaves the table as it is. -/
def offer (sizes : RowSizes) (table : LiveTable schema) (offer : Offer) : LiveTable schema :=
  match table.append sizes offer.capacity offer.record with
  | .ok (after, _) => after
  | .error _ => table

def run (sizes : RowSizes) (offers : List Offer) (table : LiveTable schema) : LiveTable schema :=
  offers.foldl (offer sizes) table

/-- The table holds what it should of the records taken so far. -/
structure Retains (maxRows maxBytes : ℕ) (taken : List (Entry schema)) (table : LiveTable schema) :
    Prop where
  rowLimit : table.maxRows = maxRows
  byteLimit : table.maxBytes = maxBytes
  rows : LongestSuffix (Within maxRows maxBytes) taken table.rows
  bytes : table.bytes = totalBytes table.rows
  ids : taken.map (·.row.id) = List.range' 1 taken.length
  nextId : table.nextId = taken.length + 1

section Retention

variable {sizes : RowSizes} {maxRows maxBytes : ℕ} {taken : List (Entry schema)}
  {table : LiveTable schema}

theorem Retains.of_rows {after : LiveTable schema} (h : table.Retains maxRows maxBytes taken)
    (hsame : after.maxRows = table.maxRows ∧ after.maxBytes = table.maxBytes ∧
      after.rows = table.rows ∧ after.bytes = table.bytes ∧ after.nextId = table.nextId) :
    after.Retains maxRows maxBytes taken := by
  obtain ⟨hmaxRows, hmaxBytes, hrows, hbytes, hnextId⟩ := hsame
  refine ⟨hmaxRows.trans h.rowLimit, hmaxBytes.trans h.byteLimit, ?_, ?_, h.ids,
    hnextId.trans h.nextId⟩
  · rw [hrows]
    exact h.rows
  · rw [hbytes, hrows]
    exact h.bytes

theorem Retains.push (h : table.Retains maxRows maxBytes taken) (hpositive : 0 < maxRows)
    {record : Record} (valid : validateRecord schema record = .ok ()) {bytes : ℕ}
    (hbytes : ¬ table.maxBytes < bytes) :
    (table.appendValid record valid bytes).1.Retains maxRows maxBytes
      (taken ++ [⟨⟨table.nextId, record, valid⟩, bytes⟩]) := by
  have hfits : Within maxRows maxBytes [(⟨⟨table.nextId, record, valid⟩, bytes⟩ : Entry schema)] := by
    refine ⟨hpositive, ?_⟩
    rw [h.byteLimit] at hbytes
    simp only [totalBytes, List.map_cons, List.map_nil, List.sum_cons, List.sum_nil]
    omega
  have hevict : evict maxRows maxBytes bytes table.rows (totalBytes table.rows) = _ :=
    @evict_eq schema maxRows maxBytes ⟨⟨table.nextId, record, valid⟩, bytes⟩ _ h.rows.within.2
  unfold appendValid
  rw [if_neg hbytes, h.rowLimit, h.byteLimit, h.bytes, hevict]
  refine ⟨rfl, rfl, h.rows.push Within.sublist hfits, ?_, ?_, ?_⟩
  · simp [totalBytes]
  · rw [List.map_append, h.ids, List.length_append, List.length_singleton,
      ← List.range'_append_1, h.nextId]
    simp [Nat.add_comm]
  · simp [h.nextId]

/-- A record throws, or it is known what it takes. -/
theorem append_cases (sizes : RowSizes) (table : LiveTable schema) (offer : Offer) :
    ((∃ message, table.append sizes offer.capacity offer.record = .error message) ∧
      ∀ maxBytes id, (offer.entry sizes maxBytes id : Option (Entry schema)) = none) ∨
    ∃ (valid : validateRecord schema offer.record = .ok ()) (bytes : ℕ),
      table.append sizes offer.capacity offer.record =
          .ok (table.appendValid offer.record valid bytes) ∧
        ∀ maxBytes id, (offer.entry sizes maxBytes id : Option (Entry schema)) =
          if maxBytes < bytes then none else some ⟨⟨id, offer.record, valid⟩, bytes⟩ := by
  unfold append
  split
  · rename_i message hvalid
    refine .inl ⟨⟨message, rfl⟩, ?_⟩
    intro maxBytes id
    unfold Offer.entry
    split
    · rfl
    · rename_i hok
      rw [hvalid] at hok
      cases hok
  · rename_i hvalid
    have hentry : ∀ maxBytes id, (offer.entry sizes maxBytes id : Option (Entry schema)) =
        match recordMemoryBytes sizes offer.capacity offer.record with
        | .error _ => none
        | .ok bytes =>
          if maxBytes < bytes then none else some ⟨⟨id, offer.record, hvalid⟩, bytes⟩ := by
      intro maxBytes id
      unfold Offer.entry
      split
      · rename_i herror
        rw [hvalid] at herror
        cases herror
      · rfl
    cases hbytes : recordMemoryBytes sizes offer.capacity offer.record with
    | error message =>
      refine .inl ⟨⟨message, rfl⟩, ?_⟩
      intro maxBytes id
      rw [hentry, hbytes]
    | ok bytes =>
      refine .inr ⟨hvalid, bytes, rfl, ?_⟩
      intro maxBytes id
      rw [hentry, hbytes]

/-- **One record more.** -/
theorem Retains.offer (h : table.Retains maxRows maxBytes taken) (hpositive : 0 < maxRows)
    (offer : Offer) :
    (table.offer sizes offer).Retains maxRows maxBytes
      (taken ++ (offer.entry sizes maxBytes table.nextId).toList) := by
  unfold LiveTable.offer
  obtain ⟨⟨message, happend⟩, hnone⟩ | ⟨valid, bytes, happend, hentry⟩ :=
    append_cases sizes table offer
  · rw [happend, hnone, Option.toList_none, List.append_nil]
    exact h
  · rw [happend, hentry, ← h.byteLimit]
    dsimp only
    by_cases hbytes : table.maxBytes < bytes
    · rw [if_pos hbytes, Option.toList_none, List.append_nil, h.byteLimit]
      apply h.of_rows
      unfold appendValid
      rw [if_pos hbytes]
      exact ⟨rfl, rfl, rfl, rfl, rfl⟩
    · rw [if_neg hbytes, Option.toList_some, h.byteLimit]
      exact h.push hpositive valid hbytes

theorem accepted_cons (sizes : RowSizes) (maxBytes id : ℕ) (offer : Offer) (offers : List Offer) :
    (accepted sizes maxBytes id (offer :: offers) : List (Entry schema)) =
      (offer.entry sizes maxBytes id).toList ++ accepted sizes maxBytes
        (id + (offer.entry sizes maxBytes id : Option (Entry schema)).toList.length) offers := by
  rw [accepted]
  cases (offer.entry sizes maxBytes id : Option (Entry schema)) with
  | none => rfl
  | some entry => rfl

theorem Retains.run (h : table.Retains maxRows maxBytes taken) (hpositive : 0 < maxRows)
    (offers : List Offer) :
    (table.run sizes offers).Retains maxRows maxBytes
      (taken ++ accepted sizes maxBytes table.nextId offers) := by
  induction offers generalizing table taken with
  | nil =>
    rw [accepted, List.append_nil]
    exact h
  | cons offer offers ih =>
    have hone : (table.offer sizes offer).Retains _ _ _ := h.offer hpositive offer
    have hid : (table.offer sizes offer).nextId = table.nextId +
        (offer.entry sizes maxBytes table.nextId : Option (Entry schema)).toList.length := by
      rw [hone.nextId, h.nextId, List.length_append]
      omega
    rw [accepted_cons, ← List.append_assoc, ← hid]
    exact ih hone

theorem construct_retains (h : construct schema maxRows maxBytes = .ok table) :
    0 < maxRows ∧ table.nextId = 1 ∧ table.Retains maxRows maxBytes [] := by
  obtain ⟨_, -, h⟩ := bind_eq_ok.mp h
  obtain ⟨hlimits, h⟩ := invalid_of_ok h
  cases h
  refine ⟨by omega, rfl, rfl, rfl, LongestSuffix.nil ⟨Nat.zero_le _, Nat.zero_le _⟩, rfl, rfl, rfl⟩

theorem Retains.ids_ascend (h : table.Retains maxRows maxBytes taken) :
    (table.rows.map (·.row.id)).Pairwise (· < ·) := by
  have hall : (taken.map (·.row.id)).Pairwise (· < ·) := by
    rw [h.ids]
    exact List.pairwise_lt_range'
  exact hall.sublist (h.rows.suffix.sublist.map _)

end Retention

/-! ### The order of the rows -/

theorem sortable_of_checkValue {field : Field} {value : Value} {u : Unit}
    (h : checkValue field value = .ok u) : sortable value = true := by
  obtain ⟨-, h⟩ := invalid_of_ok h
  obtain ⟨htype, h⟩ := invalid_of_ok h
  have hscalar : field.type.index ≤ 5 := by
    cases field.type <;> decide
  cases value with
  | double number =>
    have hfinite := invalid_eq_ok.mp h
    simpa [sortable] using hfinite
  | array values =>
    simp only [Value.index] at htype
    omega
  | object entries =>
    simp only [Value.index] at htype
    omega
  | _ => rfl

theorem sortable_of_checkValues {fields : List Field} {values : List Value} {u : Unit}
    (h : checkValues fields values = .ok u) (hlength : values.length = fields.length) :
    ∀ value ∈ values, sortable value = true := by
  induction values generalizing fields with
  | nil =>
    intro value hvalue
    cases hvalue
  | cons first values ih =>
    cases fields with
    | nil => cases hlength
    | cons field fields =>
      obtain ⟨_, hfirst, h⟩ := bind_eq_ok.mp h
      intro value hvalue
      rcases List.mem_cons.mp hvalue with rfl | hvalue
      · exact sortable_of_checkValue hfirst
      · exact ih h (Nat.succ.inj hlength) value hvalue

theorem sortable_values (row : TableRow schema) :
    ∀ value ∈ row.record.values, sortable value = true := by
  obtain ⟨_, -, h⟩ := bind_eq_ok.mp row.valid
  obtain ⟨-, h⟩ := invalid_of_ok h
  obtain ⟨hlength, h⟩ := invalid_of_ok h
  exact sortable_of_checkValues h (by omega)

theorem mem_of_fieldValue {record : Record} {field : Text} {value : Value}
    (h : record.fieldValue schema field = some value) : value ∈ record.values := by
  unfold Record.fieldValue at h
  split at h
  · cases h
  · exact List.mem_of_getElem? h

theorem sortable_of_fieldValue {row : TableRow schema} {field : Text} {value : Value}
    (h : row.record.fieldValue schema field = some value) : sortable value = true :=
  sortable_values row value (mem_of_fieldValue h)

/-- What a row is sorted by. -/
def sortKey (sort : Option FieldSort) (row : TableRow schema) : SortKey where
  field := sort.bind fun sort => row.record.fieldValue schema sort.field
  isSortable := by
    intro value hvalue
    obtain ⟨sort, -, hfield⟩ := Option.bind_eq_some_iff.mp hvalue
    exact sortable_of_fieldValue hfield

/-- By the column, then by the time, then by the number. -/
def Precedes (sort : Option FieldSort) : TableRow schema → TableRow schema → Prop :=
  ThenBy (fun a b => SortKey.Before sort (sortKey sort a) (sortKey sort b))
    (ThenBy (fun a b => a.record.receivedAtUs < b.record.receivedAtUs) fun a b => a.id < b.id)

instance (sort : Option FieldSort) : DecidableRel (@Precedes schema sort) :=
  inferInstanceAs (DecidableRel (ThenBy
    (fun a b : TableRow schema => SortKey.Before sort (sortKey sort a) (sortKey sort b))
    (ThenBy (fun a b => a.record.receivedAtUs < b.record.receivedAtUs) fun a b => a.id < b.id)))

theorem precedes_weakOrder (sort : Option FieldSort) :
    WeakOrder (@Precedes schema sort) := by
  apply WeakOrder.thenBy_weak
  · exact (SortKey.before_weakOrder sort).comap (sortKey sort)
  apply WeakOrder.thenBy_weak
  · exact WeakOrder.of_linear.comap fun a : TableRow schema => a.record.receivedAtUs
  · exact WeakOrder.of_linear.comap fun a : TableRow schema => a.id

/-- Rows with different numbers do not tie. -/
theorem precedes_of_not {sort : Option FieldSort} {a b : TableRow schema} (hid : a.id ≠ b.id)
    (h : ¬ Precedes sort b a) : Precedes sort a b := by
  unfold Precedes ThenBy at h ⊢
  by_cases hab : SortKey.Before sort (sortKey sort a) (sortKey sort b)
  · exact .inl hab
  right
  have hba : ¬ SortKey.Before sort (sortKey sort b) (sortKey sort a) := fun hc => h (.inl hc)
  refine ⟨hba, ?_⟩
  by_cases htime : a.record.receivedAtUs < b.record.receivedAtUs
  · exact .inl htime
  right
  have hnot : ¬ b.record.receivedAtUs < a.record.receivedAtUs := fun hc =>
    h (.inr ⟨hab, .inl hc⟩)
  refine ⟨hnot, ?_⟩
  by_contra hc
  exact h (.inr ⟨hab, .inr ⟨htime, by omega⟩⟩)

theorem compareValues_isOk {a b : Value} (ha : sortable a = true) (hb : sortable b = true) :
    ∃ order, compareValues a b = .ok order := by
  unfold compareValues
  split
  · exact ⟨_, rfl⟩
  · rename_i hindex
    cases a <;> cases b <;> simp [Value.index] at hindex <;>
      first
        | exact ⟨_, rfl⟩
        | cases ha

/-- The comparison of two cells is that of their sort columns. -/
theorem compareFields_eq (a b : SortKey) :
    compareFields a.field b.field = Storage.Merge.compareKeys a b := by
  obtain ⟨left, hleft⟩ := a
  obtain ⟨right, hright⟩ := b
  unfold Storage.Merge.compareKeys SortKey.type SortKey.value
  cases left with
  | none =>
    cases right with
    | none => rfl
    | some right =>
      dsimp only [compareFields]
      rw [if_pos (by omega), if_pos (by omega)]
  | some left =>
    cases right with
    | none =>
      dsimp only [compareFields]
      rw [if_pos (by omega), if_neg (by omega)]
    | some right =>
      dsimp only [compareFields, Option.getD_some]
      split
      · rename_i hindex
        have hne : left.index ≠ right.index := by omega
        unfold compareValues
        rw [if_pos hne]
        by_cases hlt : left.index < right.index
        · rw [if_pos hlt, if_pos (by omega)]
        · rw [if_neg hlt, if_neg (by omega)]
      · rfl

theorem beforeTied_iff (a b : TableRow schema) :
    beforeTied a b = true ↔ ThenBy (fun a b : TableRow schema =>
      a.record.receivedAtUs < b.record.receivedAtUs) (fun a b => a.id < b.id) a b := by
  unfold beforeTied ThenBy
  split
  · rename_i hne
    by_cases hab : a.record.receivedAtUs < b.record.receivedAtUs
    · simp [hab]
    · have hba : b.record.receivedAtUs < a.record.receivedAtUs :=
        Std.lt_of_le_of_ne (Std.not_lt.mp hab) (Ne.symm hne)
      simp [hab, hba]
  · rename_i heq
    simp [not_not.mp heq]

/-- **The comparison of the sort decides the order**, for all rows of a table. -/
theorem before_eq (sort : Option FieldSort) (a b : TableRow schema) :
    before sort a b = .ok (decide (Precedes sort a b)) := by
  cases sort with
  | none =>
    show Except.ok _ = _
    congr 1
    rw [Bool.eq_iff_iff, beforeTied_iff, decide_eq_true_eq]
    unfold Precedes
    constructor
    · exact fun h => .inr ⟨id, h⟩
    · rintro (h | ⟨-, h⟩)
      · exact h.elim
      · exact h
  | some sort =>
    obtain ⟨order, horder⟩ : ∃ order, compareFields (sortKey (some sort) a).field
        (sortKey (some sort) b).field = .ok order := by
      rw [compareFields_eq]
      unfold Storage.Merge.compareKeys
      split
      · exact ⟨_, rfl⟩
      · exact compareValues_isOk (SortKey.sortable_value _) (SortKey.sortable_value _)
    have hkeys := horder
    rw [compareFields_eq] at hkeys
    obtain ⟨hneg, hpos⟩ := Storage.Merge.compareKeys_eq_ok hkeys
    have hbefore : before (some sort) a b =
        if order ≠ 0 then .ok (if sort.descending then 0 < order else order < 0)
        else .ok (beforeTied a b) := by
      show (compareFields (sortKey (some sort) a).field (sortKey (some sort) b).field >>= _) = _
      rw [horder]
      rfl
    rw [hbefore]
    by_cases hzero : order = 0
    · have hab : ¬ (sortKey (some sort) a).Less (sortKey (some sort) b) := by
        rw [← hneg]
        omega
      have hba : ¬ (sortKey (some sort) b).Less (sortKey (some sort) a) := by
        rw [← hpos]
        omega
      rw [if_neg (not_not.mpr hzero)]
      congr 1
      rw [Bool.eq_iff_iff, beforeTied_iff, decide_eq_true_eq]
      simp [Precedes, ThenBy, SortKey.Before, hab, hba]
    · rw [if_pos hzero]
      congr 1
      rw [Bool.eq_iff_iff, decide_eq_true_eq]
      unfold Precedes ThenBy SortKey.Before
      dsimp only
      cases sort.descending
      · simp only [Bool.false_eq_true, if_false, decide_eq_true_eq]
        rw [← hneg, ← hpos]
        omega
      · simp only [if_true, decide_eq_true_eq]
        rw [← hneg, ← hpos]
        omega

/-! ### Sorting -/

/-- What may stand before what in a sorted list. -/
def NotAfter (sort : Option FieldSort) (a b : TableRow schema) : Prop := ¬ Precedes sort b a

instance (sort : Option FieldSort) : DecidableRel (@NotAfter schema sort) :=
  fun a b => inferInstanceAs (Decidable (¬ Precedes sort b a))

instance (sort : Option FieldSort) : Std.Total (@NotAfter schema sort) := by
  constructor
  intro a b
  by_cases h : Precedes sort b a
  · exact .inr ((precedes_weakOrder sort).asymm h)
  · exact .inl h

instance (sort : Option FieldSort) : IsTrans (TableRow schema) (NotAfter sort) := by
  constructor
  intro a b c hab hbc hca
  rcases (precedes_weakOrder sort).split hca b with h | h
  · exact hbc h
  · exact hab h

theorem insertRow_eq (sort : Option FieldSort) (row : TableRow schema)
    (rows : List (TableRow schema)) :
    insertRow sort row rows = .ok (rows.orderedInsert (NotAfter sort) row) := by
  induction rows with
  | nil => rfl
  | cons first rows ih =>
    rw [insertRow, before_eq, ok_bind, List.orderedInsert_cons]
    by_cases h : Precedes sort first row
    · have hafter : ¬ NotAfter sort row first := not_not.mpr h
      rw [if_pos (decide_eq_true h), if_neg hafter, ih]
      rfl
    · have hafter : NotAfter sort row first := h
      rw [if_neg (by simpa using h), if_pos hafter]
      rfl

theorem sortRows_eq (sort : Option FieldSort) (rows : List (TableRow schema)) :
    sortRows sort rows = .ok (rows.insertionSort (NotAfter sort)) := by
  induction rows with
  | nil => rfl
  | cons row rows ih =>
    rw [sortRows, ih, ok_bind, insertRow_eq]
    rfl

/-- Rows with different numbers are sorted strictly. -/
theorem insertionSort_precedes {sort : Option FieldSort} {rows : List (TableRow schema)}
    (hids : (rows.map (·.id)).Nodup) :
    (rows.insertionSort (NotAfter sort)).Pairwise (Precedes sort) := by
  have hsorted := List.pairwise_insertionSort (NotAfter sort) rows
  have hdistinct : (rows.insertionSort (NotAfter sort)).Pairwise fun a b => a.id ≠ b.id := by
    have hperm := (List.perm_insertionSort (NotAfter sort) rows).map (·.id)
    exact List.pairwise_map.mp (hperm.nodup_iff.mpr hids)
  exact (hsorted.and hdistinct).imp fun h => precedes_of_not h.2 h.1

/-! ### The filter -/

/-- What an accepted view knows about its conditions. -/
structure Comparable (condition : FieldCondition) : Prop where
  scalar : condition.value.index ≤ 5
  contains : condition.op = .contains → condition.value.index = 4

theorem comparable_of_checkConditions {conditions : List FieldCondition} {bytes : ℕ} {u : Unit}
    (h : checkConditions bytes conditions = .ok u) :
    ∀ condition ∈ conditions, Comparable condition := by
  induction conditions generalizing bytes with
  | nil =>
    intro condition hmem
    cases hmem
  | cons first conditions ih =>
    obtain ⟨hfield, h⟩ := invalid_of_ok h
    obtain ⟨-, h⟩ := invalid_of_ok h
    obtain ⟨hcontains, h⟩ := invalid_of_ok h
    obtain ⟨_, -, h⟩ := bind_eq_ok.mp h
    obtain ⟨-, h⟩ := invalid_of_ok h
    intro condition hmem
    rcases List.mem_cons.mp hmem with rfl | hmem
    · push Not at hfield hcontains
      exact ⟨hfield.2.2.2, hcontains⟩
    · exact ih h condition hmem

theorem compareValues_isOk_of_index {a b : Value} (hindex : a.index = b.index)
    (ha : a.index ≤ 5) : ∃ order, compareValues a b = .ok order := by
  unfold compareValues
  rw [if_neg (not_not.mpr hindex)]
  cases a <;> cases b <;> simp [Value.index] at hindex ha <;> exact ⟨_, rfl⟩

/-- A comparable condition decides every row. -/
theorem matchesRecord_isOk {condition : FieldCondition} (h : Comparable condition)
    (record : Record) : ∃ result, condition.matchesRecord record schema = .ok result := by
  unfold FieldCondition.matchesRecord
  split
  · exact ⟨_, rfl⟩
  · rename_i value hvalue
    split
    · exact ⟨_, rfl⟩
    · exact ⟨_, rfl⟩
    · rename_i hop
      split
      · exact ⟨_, rfl⟩
      · rename_i hindex
        have hneedle := h.contains hop
        have hhay := (not_not.mp hindex).trans hneedle
        cases hvalue' : value <;> rw [hvalue'] at hhay <;> simp [Value.index] at hhay
        cases hneedle' : condition.value <;> rw [hneedle'] at hneedle <;>
          simp [Value.index] at hneedle
        exact ⟨_, rfl⟩
    · split
      · exact ⟨_, rfl⟩
      · rename_i hindex
        have hindex := not_not.mp hindex
        obtain ⟨order, horder⟩ := compareValues_isOk_of_index hindex (hindex ▸ h.scalar)
        rw [horder]
        exact ⟨_, rfl⟩

theorem matchesConditions_isOk {conditions : List FieldCondition}
    (h : ∀ condition ∈ conditions, Comparable condition) (record : Record) :
    ∃ result, matchesConditions record schema conditions = .ok result := by
  induction conditions with
  | nil => exact ⟨true, rfl⟩
  | cons first conditions ih =>
    obtain ⟨result, hresult⟩ := matchesRecord_isOk (h first List.mem_cons_self) record
    rw [matchesConditions, hresult, ok_bind]
    cases result with
    | true => exact ih fun condition hmem => h condition (List.mem_cons_of_mem _ hmem)
    | false => exact ⟨false, rfl⟩

/-- Whether a view shows a row. -/
def shown (view : TableView) (row : TableRow schema) : Bool :=
  match shows view row with
  | .ok result => result
  | .error _ => false

variable {view : TableView}

/-- **An accepted view decides every row.** -/
theorem shows_eq {u : Unit} (h : validateTableView view = .ok u) (row : TableRow schema) :
    shows view row = .ok (shown view row) := by
  obtain ⟨_, hconditions, -⟩ := bind_eq_ok.mp h
  obtain ⟨-, hconditions⟩ := invalid_of_ok hconditions
  obtain ⟨result, hresult⟩ : ∃ result, shows view row = .ok result := by
    unfold shows
    split
    · exact ⟨false, rfl⟩
    · exact matchesConditions_isOk (comparable_of_checkConditions hconditions) row.record
  unfold shown
  rw [hresult]

theorem filterRows_eq {u : Unit} (h : validateTableView view = .ok u)
    (entries : List (Entry schema)) :
    filterRows view entries = .ok ((entries.map (·.row)).filter (shown view)) := by
  induction entries with
  | nil => rfl
  | cons entry entries ih =>
    rw [filterRows, shows_eq h, ok_bind, ih, ok_bind, List.map_cons, List.filter_cons]
    rfl

/-! ### Pages -/

/-- The rows a view shows, in its order. -/
def shownRows (view : TableView) (table : LiveTable schema) : List (TableRow schema) :=
  ((table.rows.map (·.row)).filter (shown view)).insertionSort (NotAfter view.sort)

/-- **A page is a piece of the sorted rows**, and there is more where they go on. -/
theorem page_eq {u : Unit} (h : validateTableView view = .ok u) (table : LiveTable schema) :
    table.page view = .ok
      { rows := ((table.shownRows view).drop view.offset).take view.limit
        offset := view.offset
        limit := view.limit
        more := decide (view.offset + view.limit < (table.shownRows view).length)
        revision := table.revision
        error := table.error } := by
  unfold page
  rw [h, ok_bind, filterRows_eq h, ok_bind, sortRows_eq, ok_bind]
  show Except.ok _ = _
  unfold shownRows
  generalize ((table.rows.map (·.row)).filter (shown view)).insertionSort
    (NotAfter view.sort) = rows
  have hdrop : rows.drop (min view.offset rows.length) = rows.drop view.offset := by
    by_cases hle : view.offset ≤ rows.length
    · rw [Nat.min_eq_left hle]
    · rw [Nat.min_eq_right (by omega), List.drop_length, List.drop_eq_nil_of_le (by omega)]
  have htake : (rows.drop view.offset).take
      (min view.offset rows.length + min view.limit (rows.length - min view.offset rows.length) -
        min view.offset rows.length) = (rows.drop view.offset).take view.limit := by
    rw [List.take_eq_take_iff, List.length_drop]
    omega
  congr 2
  · rw [hdrop, htake]
  · rw [decide_eq_decide]
    omega

/-- A view at another offset. -/
def viewFrom (view : TableView) (offset : ℕ) : TableView := { view with offset := offset }

theorem validate_viewFrom {u : Unit} (h : validateTableView view = .ok u) {offset : ℕ}
    (hoffset : (offset : ℤ) ≤ int64Max) : validateTableView (viewFrom view offset) = .ok () := by
  obtain ⟨_, hconditions, h⟩ := bind_eq_ok.mp h
  have hlimits := invalid_eq_ok.mp h
  unfold validateTableView
  refine bind_eq_ok.mpr ⟨(), hconditions, invalid_eq_ok.mpr ?_⟩
  push Not at hlimits ⊢
  obtain ⟨hfirst, hlimit, -, hrest⟩ := hlimits
  exact ⟨hfirst, hlimit, hoffset, hrest⟩

/-- The pages of a view from an offset on, each asked for where the one before it has more. -/
def pagesFrom (view : TableView) (table : LiveTable schema) :
    ℕ → ℕ → Except String (List (TablePage schema))
  | 0, _ => .ok []
  | fuel + 1, offset => do
    let page ← table.page (viewFrom view offset)
    if page.more then
      let pages ← pagesFrom view table fuel (offset + view.limit)
      return page :: pages
    else return [page]

/-- All pages of a view; every page that has more shows at least one row. -/
def pages (view : TableView) (table : LiveTable schema) : Except String (List (TablePage schema)) :=
  pagesFrom view table (table.rows.length + 1) 0

theorem length_shownRows_le (view : TableView) (table : LiveTable schema) :
    (table.shownRows view).length ≤ table.rows.length := by
  unfold shownRows
  rw [List.length_insertionSort]
  exact (List.length_filter_le _ _).trans (List.length_map _).le

/-- **The pages one after another are the sorted rows.** -/
theorem pagesFrom_eq {u : Unit} (h : validateTableView view = .ok u) {table : LiveTable schema}
    (hrows : (table.rows.length : ℤ) ≤ int64Max) {fuel offset : ℕ}
    (hoffset : offset ≤ (table.shownRows view).length)
    (hfuel : (table.shownRows view).length < offset + fuel) :
    ∃ pages, pagesFrom view table fuel offset = .ok pages ∧
      pages.flatMap (·.rows) = (table.shownRows view).drop offset ∧
      ∀ page ∈ pages, page.rows.length ≤ view.limit := by
  have hlimit : 1 ≤ view.limit := by
    obtain ⟨_, -, h⟩ := bind_eq_ok.mp h
    have := invalid_eq_ok.mp h
    omega
  have hle := length_shownRows_le view table
  induction fuel generalizing offset with
  | zero => omega
  | succ fuel ih =>
    have hpage : table.page (viewFrom view offset) = .ok
        { rows := ((table.shownRows view).drop offset).take view.limit
          offset := offset
          limit := view.limit
          more := decide (offset + view.limit < (table.shownRows view).length)
          revision := table.revision
          error := table.error } :=
      page_eq (validate_viewFrom h (by omega)) table
    have hlength : (((table.shownRows view).drop offset).take view.limit).length ≤ view.limit := by
      rw [List.length_take]
      exact Nat.min_le_left _ _
    rw [pagesFrom, hpage, ok_bind]
    dsimp only
    by_cases hmore : offset + view.limit < (table.shownRows view).length
    · obtain ⟨rest, hrest, hconcat, hall⟩ := ih (by omega : offset + view.limit ≤ _) (by omega)
      rw [if_pos (decide_eq_true hmore), hrest, ok_bind]
      refine ⟨_, rfl, ?_, ?_⟩
      · rw [List.flatMap_cons, hconcat, ← List.drop_drop, List.take_append_drop]
      · intro page hpage
        rcases List.mem_cons.mp hpage with rfl | hpage
        · exact hlength
        · exact hall page hpage
    · rw [if_neg (by simpa using hmore)]
      refine ⟨_, rfl, ?_, ?_⟩
      · rw [List.flatMap_cons, List.flatMap_nil, List.append_nil, List.take_of_length_le]
        rw [List.length_drop]
        omega
      · intro page hpage
        rcases List.mem_cons.mp hpage with rfl | hpage
        · exact hlength
        · cases hpage

/-- What the pages of a table give of a view: the rows it shows, each once and in its order, cut
in pieces of the size it asks for. -/
structure Paged (view : TableView) (table : LiveTable schema) (pages : List (TablePage schema)) :
    Prop where
  perm : (pages.flatMap (·.rows)).Perm ((table.rows.map (·.row)).filter (shown view))
  sorted : (pages.flatMap (·.rows)).Pairwise (Precedes view.sort)
  limit : ∀ page ∈ pages, page.rows.length ≤ view.limit

/-- **What the live table keeps and shows.**  After every sequence of records the rows are the
longest suffix of those taken that is within both limits, the byte count is their total and
their numbers go up; and every view that is accepted is given page by page, with no row lost
and none twice. -/
theorem live_table_retains {maxRows maxBytes : ℕ} {table : LiveTable schema}
    (hopen : construct schema maxRows maxBytes = .ok table) (sizes : RowSizes)
    (offers : List Offer) :
    LongestSuffix (Within maxRows maxBytes) (accepted sizes maxBytes 1 offers)
        (table.run sizes offers).rows ∧
      (table.run sizes offers).bytes = totalBytes (table.run sizes offers).rows ∧
      ((table.run sizes offers).rows.map (·.row.id)).Pairwise (· < ·) ∧
      ∀ view, validateTableView view = .ok () →
        (∀ row : TableRow schema, shows view row = .ok (shown view row)) ∧
        ∃ pages, (table.run sizes offers).pages view = .ok pages ∧
          Paged view (table.run sizes offers) pages := by
  obtain ⟨hpositive, hfirst, hretains⟩ := construct_retains hopen
  have hrun : (table.run sizes offers).Retains _ _ _ := hretains.run hpositive offers
  rw [List.nil_append, hfirst] at hrun
  refine ⟨hrun.rows, hrun.bytes, hrun.ids_ascend, ?_⟩
  intro view hview
  refine ⟨shows_eq hview, ?_⟩
  have hlimit : maxRows ≤ 1000 := by
    obtain ⟨_, -, h⟩ := bind_eq_ok.mp hopen
    obtain ⟨hlimits, -⟩ := invalid_of_ok h
    omega
  have hlength := hrun.rows.within.1
  have hcount : ((table.run sizes offers).rows.length : ℤ) ≤ int64Max := by
    unfold int64Max
    omega
  have hfuel := length_shownRows_le view (table.run sizes offers)
  obtain ⟨pages, hpages, hconcat, hall⟩ := pagesFrom_eq hview hcount (Nat.zero_le _)
    (by omega : _ < 0 + ((table.run sizes offers).rows.length + 1))
  rw [List.drop_zero] at hconcat
  refine ⟨pages, hpages, ?_, ?_, hall⟩
  · rw [hconcat]
    exact List.perm_insertionSort _ _
  · rw [hconcat]
    apply insertionSort_precedes
    have hids : (((table.run sizes offers).rows.map (·.row)).map (·.id)).Nodup := by
      rw [List.map_map]
      exact hrun.ids_ascend.imp Nat.ne_of_lt
    exact hids.sublist (List.filter_sublist.map _)

/-- A table of one row that is offered two records, the first of them longer than the table. -/
theorem live_table_retains_two :
    let schema : Schema := { dataset := [100], fields := [{ name := [120], type := .bool }] }
    let record : Record :=
      { protocol := [112], dataset := [100], device := [], values := [.bool true] }
    let capacity : RecordCapacity := ⟨15, 15, 15, 1, [0]⟩
    let sizes : RowSizes := ⟨152, 56, 40⟩
    let offers : List Offer :=
      [⟨record, { capacity with values := 100 }⟩, ⟨record, capacity⟩, ⟨record, capacity⟩]
    let table : LiveTable schema := { maxRows := 1, maxBytes := 1000 }
    ((table.run sizes offers).rows.map (·.row.id)).Pairwise (· < ·) ∧
      ((table.run sizes offers).rows.map (·.row.id)) = [2] ∧
      ∃ pages, (table.run sizes offers).pages {} = .ok pages ∧
        (pages.flatMap (·.rows)).Perm
          (((table.run sizes offers).rows.map (·.row)).filter (shown {})) := by
  intro schema record capacity sizes offers table
  have hopen : construct schema 1 1000 = .ok table := rfl
  obtain ⟨-, -, hids, hviews⟩ := live_table_retains hopen sizes offers
  obtain ⟨-, pages, hpages, hpaged⟩ := hviews {} rfl
  have htwo : (table.run sizes offers).rows.map (·.row.id) = [2] := by decide +kernel
  exact ⟨hids, htwo, pages, hpages, hpaged.perm⟩

end LiveTable

end ProtoScope.Data
