/-
Where the field loop of a frame reads.

The loop walks the fields with a cursor and returns only their values.  `fieldReads` is its
trace: for each field the plan the loop made and whether it was decoded by it.  The values
are those of the decoded plans, so a statement about where bytes are read is a statement
about this list.
-/
import ProtoScope.Proofs.Scripting.FrameAnalysis

namespace ProtoScope.Scripting

/-- What the loop did with one field. -/
structure FieldRead where
  field : StreamFieldDefinition
  plan : FieldDecodePlan
  decoded : Bool

/-- The fields the loop comes to, up to the first error. -/
def fieldReads (frame : StreamFrameDefinition) (raw : List UInt8) (readableLimit : Nat) :
    List StreamFieldDefinition → Nat → StreamFieldMap → List FieldRead
  | [], _, _ => []
  | field :: rest, cursor, parsedFields =>
    match resolveFieldDecodePlan frame field raw readableLimit cursor parsedFields with
    | .error _ => []
    | .ok plan =>
      if plan.start ≤ readableLimit ∧ plan.end ≤ readableLimit then
        ⟨field, plan, true⟩ :: fieldReads frame raw readableLimit rest (max cursor plan.end)
          (parsedFields.insert field.name (decodeFieldValue field raw plan))
      else if frame.runtimeProfile then
        ⟨field, plan, false⟩ :: fieldReads frame raw readableLimit rest cursor parsedFields
      else []

/-- The map after a read. -/
def FieldRead.store (raw : List UInt8) (parsedFields : StreamFieldMap) (read : FieldRead) :
    StreamFieldMap :=
  if read.decoded then
    parsedFields.insert read.field.name (decodeFieldValue read.field raw read.plan)
  else parsedFields

variable {frame : StreamFrameDefinition} {field : StreamFieldDefinition} {raw : List UInt8}
  {readableLimit cursor : Nat} {fields : List StreamFieldDefinition}
  {parsedFields parsed : StreamFieldMap} {plan : FieldDecodePlan}

/-- **The values of a frame are those of its reads**, one for each field. -/
theorem decodeFrameFields_eq_ok
    (h : decodeFrameFields frame raw readableLimit fields cursor parsedFields = .ok parsed) :
    (fieldReads frame raw readableLimit fields cursor parsedFields).map (·.field) = fields ∧
      parsed = (fieldReads frame raw readableLimit fields cursor parsedFields).foldl
        (FieldRead.store raw) parsedFields := by
  induction fields generalizing cursor parsedFields with
  | nil =>
    cases h
    exact ⟨rfl, rfl⟩
  | cons field rest ih =>
    unfold decodeFrameFields at h
    unfold fieldReads
    cases hplan : resolveFieldDecodePlan frame field raw readableLimit cursor parsedFields with
    | error stop =>
      rw [hplan] at h
      cases h
    | ok plan =>
      simp only [hplan] at h
      simp only
      split_ifs at h ⊢
      · obtain ⟨hfields, hparsed⟩ := ih h
        exact ⟨congrArg _ hfields, hparsed⟩
      · obtain ⟨hfields, hparsed⟩ := ih h
        exact ⟨congrArg _ hfields, hparsed⟩

/-- A read is a read of one of the fields. -/
theorem field_mem_of_read {read : FieldRead}
    (h : read ∈ fieldReads frame raw readableLimit fields cursor parsedFields) :
    read.field ∈ fields := by
  induction fields generalizing cursor parsedFields with
  | nil => cases h
  | cons field rest ih =>
    unfold fieldReads at h
    split at h
    · cases h
    · split_ifs at h
      · rcases List.mem_cons.mp h with rfl | h
        · exact List.mem_cons_self
        · exact List.mem_cons_of_mem _ (ih h)
      · rcases List.mem_cons.mp h with rfl | h
        · exact List.mem_cons_self
        · exact List.mem_cons_of_mem _ (ih h)
      · cases h

theorem checkedMultiplySize_eq {left right product : Nat}
    (h : checkedMultiplySize left right = some product) :
    product = left * right ∧ product ≤ sizeMax := by
  unfold checkedMultiplySize at h
  split_ifs at h with hover
  cases h
  refine ⟨rfl, ?_⟩
  by_cases hzero : left = 0
  · rw [hzero, Nat.zero_mul]
    exact Nat.zero_le _
  · have hle : right ≤ sizeMax / left := by
      by_contra hlt
      exact hover ⟨hzero, by omega⟩
    calc left * right ≤ left * (sizeMax / left) := Nat.mul_le_mul_left _ hle
      _ ≤ sizeMax := Nat.mul_div_le _ _

theorem checkedAddSize_le {left right sum : Nat} (hleft : right ≤ sizeMax)
    (h : checkedAddSize left right = some sum) : sum ≤ sizeMax := by
  unfold checkedAddSize at h
  split_ifs at h with hover
  cases h
  omega

/-- What a plan says: where the field starts, how many elements it has and where it ends. -/
structure FieldDecodePlan.Describes (plan : FieldDecodePlan) (field : StreamFieldDefinition)
    (start : Nat) : Prop where
  start_eq : plan.start = start
  width_eq : plan.width = streamValueWidth field.type
  end_eq : plan.end = plan.start + plan.count * plan.width
  end_le : plan.end ≤ sizeMax

theorem resolveFieldDecodePlan_eq_ok
    (h : resolveFieldDecodePlan frame field raw readableLimit cursor parsedFields = .ok plan) :
    plan.Describes field (field.offset.getD cursor) ∧
      resolveFieldCount field parsedFields raw.length readableLimit (field.offset.getD cursor)
        = .ok plan.count := by
  unfold resolveFieldDecodePlan at h
  simp only at h
  cases hcount : resolveFieldCount field parsedFields raw.length readableLimit
      (field.offset.getD cursor) with
  | error countError => simp [hcount] at h
  | ok count =>
    simp only [hcount] at h
    cases hbytes : checkedMultiplySize count (streamValueWidth field.type) with
    | none => simp [hbytes] at h
    | some fieldBytes =>
      simp only [hbytes] at h
      cases hend : checkedAddSize (field.offset.getD cursor) fieldBytes with
      | none => simp [hend] at h
      | some fieldEnd =>
        simp only [hend] at h
        cases h
        obtain ⟨hproduct, hle⟩ := checkedMultiplySize_eq hbytes
        refine ⟨⟨rfl, rfl, ?_, checkedAddSize_le hle hend⟩, rfl⟩
        rw [checkedAddSize_eq hend, hproduct]

end ProtoScope.Scripting
