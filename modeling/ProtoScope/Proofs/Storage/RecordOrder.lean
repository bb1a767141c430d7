/-
The order of the rows of a query.

Across volumes a row comes before another by its sort column, then by the time it was
received, then by its global id.  The comparison of the merge decides that order wherever
it decides at all, and the order within one volume is that of its statement.
-/
import ProtoScope.Library.FloatOrder
import ProtoScope.Storage.RecordQuery

namespace ProtoScope.Storage

open ProtoScope.Data ProtoScope.Library WeakOrder

/-! ### Sort columns -/

theorem scalarLess_asymm {a b : Value} (h : scalarLess a b = true) : ¬ scalarLess b a = true := by
  cases a <;> cases b <;> simp only [scalarLess, decide_eq_true_eq, Bool.false_eq_true] at h ⊢
  · exact of_linear.asymm h
  · intro h'
    exact absurd (FloatOrder.lt_of_lt_of_lt h h') (by simp [FloatOrder.not_lt_self])
  · exact of_linear.asymm h
  · exact of_linear.asymm h
  · exact of_linear.asymm h

theorem scalarLess_split {a b c : Value} (hab : a.index = b.index) (hb : sortable b = true)
    (h : scalarLess a c = true) : scalarLess a b = true ∨ scalarLess b c = true := by
  cases a <;> cases c <;> simp only [scalarLess, Bool.false_eq_true] at h
  all_goals
    cases b <;> simp [Value.index] at hab
    simp only [scalarLess, decide_eq_true_eq] at h ⊢
  · exact of_linear.split h _
  · exact FloatOrder.lt_or_lt hb h
  · exact of_linear.split h _
  · exact of_linear.split h _
  · exact of_linear.split h _

namespace SortKey

variable {a b : SortKey}

theorem sortable_value (key : SortKey) : sortable key.value = true := by
  obtain ⟨_ | value, h⟩ := key
  · rfl
  · exact h value rfl

theorem index_eq_of_type_eq (h : a.type = b.type) : a.value.index = b.value.index := by
  obtain ⟨_ | left, ha⟩ := a <;> obtain ⟨_ | right, hb⟩ := b
  · rfl
  · simp only [type] at h
    omega
  · simp only [type] at h
    omega
  · exact Int.ofNat_inj.mp h

/-- The sort columns have a strict weak order. -/
theorem less_weakOrder : WeakOrder Less := by
  apply thenBy
  · exact of_linear.comap type
  · intro a b h
    exact scalarLess_asymm h
  · intro a b c hab hba hbc hcb h
    apply scalarLess_split (index_eq_of_type_eq _) (sortable_value b) h
    omega

theorem before_weakOrder (sort : Option FieldSort) : WeakOrder (Before sort) := by
  unfold Before
  cases sort with
  | none => exact .tied
  | some sort =>
    cases hdescending : sort.descending with
    | false => simpa [hdescending] using less_weakOrder
    | true => simpa [hdescending] using less_weakOrder.swap

end SortKey

/-! ### Rows of all volumes -/

/-- A row and the source it is in. -/
structure Located where
  source : RecordSource
  row : Row

namespace Located

def number (located : Located) : ℤ := located.source.idBase + located.row.id

def Precedes (sort : Option FieldSort) : Located → Located → Prop :=
  ThenBy (fun a b => SortKey.Before sort a.row.sortKey b.row.sortKey)
    (ThenBy (fun a b => a.row.receivedUs < b.row.receivedUs) fun a b => a.number < b.number)

instance (sort : Option FieldSort) : DecidableRel (Precedes sort) :=
  inferInstanceAs (DecidableRel (ThenBy
    (fun a b : Located => SortKey.Before sort a.row.sortKey b.row.sortKey)
    (ThenBy (fun a b => a.row.receivedUs < b.row.receivedUs) fun a b => a.number < b.number)))

/-- **The rows of all volumes have a strict weak order.** -/
theorem precedes_weakOrder (sort : Option FieldSort) : WeakOrder (Precedes sort) := by
  apply thenBy_weak
  · exact (SortKey.before_weakOrder sort).comap fun a : Located => a.row.sortKey
  apply thenBy_weak
  · exact of_linear.comap fun a : Located => a.row.receivedUs
  · exact of_linear.comap number

/-- Within one volume it is the order of the volume's statement. -/
theorem precedes_iff (sort : Option FieldSort) (source : RecordSource) (a b : Row) :
    Precedes sort ⟨source, a⟩ ⟨source, b⟩ ↔ Row.Before sort a b := by
  unfold Precedes Row.Before ThenBy number
  simp only [Int.add_lt_add_iff_left]

end Located

theorem Row.before_weakOrder (sort : Option FieldSort) : WeakOrder (Row.Before sort) := by
  have h := (Located.precedes_weakOrder sort).comap (Located.mk { path := "", schemaIds := [] })
  simpa only [Located.precedes_iff] using h

/-! ### The comparison of the merge -/

theorem compareScalars_neg {α : Type} [LT α] [DecidableLT α] {a b : α} :
    compareScalars a b < 0 ↔ a < b := by
  unfold compareScalars
  split
  · simp [*]
  · split <;> simp [*]

theorem compareScalars_pos {α : Type} [LT α] [DecidableLT α] {a b : α} (h : a < b → ¬ b < a) :
    0 < compareScalars a b ↔ b < a := by
  unfold compareScalars
  split
  · rename_i hab
    simp [h hab]
  · split <;> simp [*]

theorem compareValues_eq_ok {a b : Value} {order : ℤ} (hindex : a.index = b.index)
    (h : compareValues a b = .ok order) :
    (order < 0 ↔ scalarLess a b = true) ∧ (0 < order ↔ scalarLess b a = true) := by
  unfold compareValues at h
  rw [if_neg (not_not.mpr hindex)] at h
  cases a <;> cases b <;> simp [Value.index] at hindex <;> cases h
  · simp [scalarLess]
  all_goals simp only [scalarLess, decide_eq_true_eq]
  · exact ⟨compareScalars_neg, compareScalars_pos of_linear.asymm⟩
  · refine ⟨compareScalars_neg, compareScalars_pos fun hab hba => ?_⟩
    exact absurd (FloatOrder.lt_of_lt_of_lt hab hba) (by simp [FloatOrder.not_lt_self])
  · exact ⟨compareScalars_neg, compareScalars_pos of_linear.asymm⟩
  · exact ⟨compareScalars_neg, compareScalars_pos of_linear.asymm⟩
  · exact ⟨compareScalars_neg, compareScalars_pos of_linear.asymm⟩

def Cursor.located (cursor : Cursor) : Located := ⟨cursor.source, cursor.current⟩

namespace Merge

theorem compareKeys_eq_ok {a b : SortKey} {order : ℤ} (h : compareKeys a b = .ok order) :
    (order < 0 ↔ a.Less b) ∧ (0 < order ↔ b.Less a) := by
  unfold compareKeys at h
  unfold SortKey.Less ThenBy
  dsimp only
  split at h
  · cases h
    split <;> omega
  · rename_i htype
    have htype : a.type = b.type := not_not.mp htype
    obtain ⟨hneg, hpos⟩ := compareValues_eq_ok (SortKey.index_eq_of_type_eq htype) h
    rw [hneg, hpos, htype]
    simp

theorem globalId_eq_ok {cursor : Cursor} {id : ℤ} (h : cursor.globalId = .ok id) :
    id = cursor.located.number := by
  obtain ⟨-, h⟩ := invalid_of_ok h
  cases h
  rfl

theorem beforeTied_eq_ok {a b : Cursor} {result : Bool} (h : beforeTied a b = .ok result) :
    result = true ↔ ThenBy (fun a b : Located => a.row.receivedUs < b.row.receivedUs)
      (fun a b => a.number < b.number) a.located b.located := by
  unfold beforeTied at h
  unfold ThenBy
  dsimp only [Cursor.located] at h ⊢
  split at h
  · rename_i hne
    cases h
    by_cases hab : a.current.receivedUs < b.current.receivedUs
    · simp [hab]
    · have hba : b.current.receivedUs < a.current.receivedUs :=
        Std.lt_of_le_of_ne (Std.not_lt.mp hab) (Ne.symm hne)
      simp [hab, hba]
  · rename_i heq
    have heq : a.current.receivedUs = b.current.receivedUs := not_not.mp heq
    obtain ⟨left, hleft, h⟩ := bind_eq_ok.mp h
    obtain ⟨right, hright, h⟩ := bind_eq_ok.mp h
    cases h
    rw [decide_eq_true_eq, globalId_eq_ok hleft, globalId_eq_ok hright, heq]
    simp [Cursor.located]

/-- **Where the comparison decides, it decides the order of the query.** -/
theorem before_eq_ok {sort : Option FieldSort} {a b : Cursor} {result : Bool}
    (h : before sort a b = .ok result) :
    result = true ↔ Located.Precedes sort a.located b.located := by
  unfold before at h
  unfold Located.Precedes ThenBy
  cases sort with
  | none =>
    rw [beforeTied_eq_ok h]
    simp [SortKey.Before, ThenBy]
  | some sort =>
    obtain ⟨order, horder, h⟩ := bind_eq_ok.mp h
    obtain ⟨hneg, hpos⟩ := compareKeys_eq_ok horder
    dsimp only [SortKey.Before, Cursor.located]
    split at h
    · rename_i hne
      cases h
      cases sort.descending
      · simp only [Bool.false_eq_true, if_false, decide_eq_true_eq, hneg]
        rw [← hneg, ← hpos]
        omega
      · simp only [if_true, decide_eq_true_eq]
        rw [← hneg, ← hpos]
        omega
    · rename_i heq
      have heq : order = 0 := not_not.mp heq
      rw [beforeTied_eq_ok h]
      subst heq
      have hab : ¬ a.current.sortKey.Less b.current.sortKey := by
        rw [← hneg]
        omega
      have hba : ¬ b.current.sortKey.Less a.current.sortKey := by
        rw [← hpos]
        omega
      simp [hab, hba, ThenBy, Cursor.located]

end Merge

end ProtoScope.Storage
