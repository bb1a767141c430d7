/-
Schemas and records come back from the values they are written as.
-/
import ProtoScope.Proofs.Data.ValueCodec

namespace ProtoScope.Data

open ProtoScope.Library

/-! ### Fixed-width integers -/

theorem toInt_toInt64 {value : UInt64} (h : (value.toNat : ℤ) ≤ int64Max) :
    value.toInt64.toInt = value.toNat := by
  show value.toBitVec.toInt = value.toBitVec.toNat
  apply BitVec.toInt_eq_toNat_of_lt
  have : value.toBitVec.toNat = value.toNat := rfl
  unfold int64Max at h
  omega

theorem toInt64_not_neg {value : UInt64} (h : (value.toNat : ℤ) ≤ int64Max) :
    ¬ value.toInt64 < 0 := by
  rw [Int64.lt_iff_toInt_lt, toInt_toInt64 h, Int64.toInt_zero]
  omega

theorem toInt64_not_le_zero {value : UInt64} (hzero : value ≠ 0)
    (h : (value.toNat : ℤ) ≤ int64Max) : ¬ value.toInt64 ≤ 0 := by
  rw [Int64.le_iff_toInt_le, toInt_toInt64 h, Int64.toInt_zero]
  have : value.toNat ≠ 0 := fun hz => hzero (UInt64.toNat.inj hz)
  omega

/-! ### Schemas -/

theorem ofIndex_index (type : FieldType) :
    FieldType.ofIndex (Int64.ofNat type.index).toInt = .ok type := by
  cases type <;> rfl

def fieldValue (field : Field) : Value :=
  .array [.string field.name, .int64 (Int64.ofNat field.type.index), .bool field.nullable]

theorem fieldFromValue_fieldValue (field : Field) :
    fieldFromValue (fieldValue field) = .ok field := by
  show (FieldType.ofIndex (Int64.ofNat field.type.index).toInt >>= _) = _
  rw [ofIndex_index]
  rfl

theorem mapM_fieldFromValue (fields : List Field) :
    (fields.map fieldValue).mapM fieldFromValue = .ok fields := by
  induction fields with
  | nil => rfl
  | cons field fields ih =>
    rw [List.map_cons, List.mapM_cons, fieldFromValue_fieldValue, ih]
    rfl

/-- **A schema comes back from its value.** -/
theorem schemaFromValue_of_schemaValue {schema : Schema} {value : Value}
    (h : schemaValue schema = .ok value) : schemaFromValue value = .ok schema := by
  obtain ⟨_, hvalid, hvalue⟩ := bind_eq_ok.mp h
  cases hvalue
  show ((schema.fields.map fieldValue).mapM fieldFromValue >>= _) = _
  rw [mapM_fieldFromValue]
  show (validateSchema schema >>= _) = _
  rw [hvalid]
  rfl

theorem schemaValue_ordered {schema : Schema} {value : Value}
    (h : schemaValue schema = .ok value) : value.Ordered := by
  obtain ⟨_, -, hvalue⟩ := bind_eq_ok.mp h
  cases hvalue
  refine ⟨trivial, valuesOrdered_iff.mpr fun value hvalue => ?_, trivial⟩
  obtain ⟨field, -, rfl⟩ := List.mem_map.mp hvalue
  exact ⟨trivial, trivial, trivial, trivial⟩

/-- The next entry of a map goes behind those that are in. -/
theorem Schemas.emplace_next {earlier result : Schemas} {version : UInt64} {schema : Schema}
    {others : List (UInt64 × Schema)}
    (hresult : result.entries = earlier.entries ++ (version, schema) :: others) :
    ∃ next, earlier.emplace version schema = some next ∧
      result.entries = next.entries ++ others := by
  have habove : ∀ entry ∈ earlier.entries, entry.1 < version := by
    have hascending := result.ascending
    rw [hresult] at hascending
    exact fun entry hentry => (List.pairwise_append.mp hascending).2.2 entry hentry
      (version, schema) List.mem_cons_self
  have hemplace := OrderedMap.emplace_of_above schema habove
  unfold Schemas.emplace
  split
  · rename_i hnone
    rw [hemplace] at hnone
    cases hnone
  · rename_i entries hsome
    rw [hemplace] at hsome
    cases hsome
    refine ⟨_, rfl, ?_⟩
    rw [hresult, List.append_assoc]
    rfl

theorem Schemas.eq_of_entries {first second : Schemas} (h : first.entries = second.entries) :
    first = second := by
  cases first
  cases second
  cases h
  rfl

/-! ### Records -/

/-- **A record comes back from its value.** -/
theorem recordFromValue_of_recordValue {record : Record} {value : Value}
    (h : recordValue record = .ok value) : recordFromValue value = .ok record := by
  obtain ⟨hversion, hvalue⟩ := invalid_of_ok h
  cases hvalue
  have hnonneg : ¬ record.schemaVersion.toInt64 < 0 := toInt64_not_neg (by omega)
  obtain ⟨protocol, dataset, device, receivedAtUs, deviceTimeUs, version, values⟩ := record
  show (invalid (version.toInt64 < 0) _ >>= _) = _
  rw [invalid_of_not hnonneg]
  cases deviceTimeUs with
  | none =>
    show Except.ok (Record.mk protocol dataset device receivedAtUs none _ values) = _
    rw [UInt64.toUInt64_toInt64]
  | some time =>
    show Except.ok (Record.mk protocol dataset device receivedAtUs (some time) _ values) = _
    rw [UInt64.toUInt64_toInt64]

/-- The values of a validated record have no parts. -/
theorem checkValues_ordered {fields : List Field} {values : List Value}
    (hlength : values.length = fields.length) (h : checkValues fields values = .ok ()) :
    ValuesOrdered values := by
  induction fields generalizing values with
  | nil =>
    rw [List.length_eq_zero_iff.mp hlength]
    trivial
  | cons field fields ih =>
    obtain ⟨value, values, rfl⟩ := List.exists_cons_of_length_eq_add_one hlength
    obtain ⟨_, hfirst, hrest⟩ := bind_eq_ok.mp h
    refine ⟨?_, ih (by simpa using hlength) hrest⟩
    obtain ⟨-, hchecked⟩ := invalid_of_ok hfirst
    obtain ⟨htype, -⟩ := invalid_of_ok hchecked
    have hscalar : value.index ≤ 5 := by
      have : field.type.index ≤ 5 := by
        cases field.type <;> decide
      by_cases hnull : value.index = 0
      · omega
      · have := not_not.mp fun hne => htype ⟨hnull, hne⟩
        omega
    cases value with
    | array values => exact absurd hscalar (by simp [Value.index])
    | object entries => exact absurd hscalar (by simp [Value.index])
    | _ => trivial

theorem recordValue_ordered {schema : Schema} {record : Record} {value : Value}
    (hvalid : validateRecord schema record = .ok ()) (h : recordValue record = .ok value) :
    value.Ordered := by
  obtain ⟨_, hvalue⟩ := invalid_of_ok h
  cases hvalue
  obtain ⟨_, -, hvalid⟩ := bind_eq_ok.mp hvalid
  obtain ⟨-, hvalid⟩ := invalid_of_ok hvalid
  obtain ⟨hshape, hvalues⟩ := invalid_of_ok hvalid
  have hordered := checkValues_ordered (not_not.mp fun hne => hshape (.inr hne)) hvalues
  refine ⟨trivial, trivial, trivial, trivial, ?_, trivial, hordered, trivial⟩
  cases record.deviceTimeUs <;> trivial

end ProtoScope.Data
