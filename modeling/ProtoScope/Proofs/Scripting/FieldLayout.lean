/-
Where the fields of a frame lie, and where the loop looks for them.

A field without an offset follows the fields declared before it, and a frame that a runtime
profile makes short lacks the fields past its end.  The loop leaves its cursor where it was
when it skips such a field, so the next field without an offset is looked for in its place,
and one that happens to fit there is decoded from the bytes of the field that was skipped.
-/
import ProtoScope.Proofs.Scripting.FieldReads

namespace ProtoScope.Scripting

open FieldRead

/-- How many bytes the field of a read takes. -/
def FieldRead.width (read : FieldRead) : Nat := read.plan.count * read.plan.width

/-- Where a field lies when what is declared before it ends at `position`. -/
def FieldRead.layoutStart (read : FieldRead) (position : Nat) : Nat :=
  read.field.offset.getD position

/-- Where the farthest of the fields ends, decoded or not, when the first may begin at
`position`. -/
def layoutEnd (position : Nat) (reads : List FieldRead) : Nat :=
  reads.foldl (fun position read => max position (read.layoutStart position + read.width)) position

/-- Every decoded field is read where it lies. -/
def ReadsInPlace (position : Nat) (reads : List FieldRead) : Prop :=
  ∀ before read after, reads = before ++ read :: after → read.decoded = true →
    read.plan.start = read.layoutStart (layoutEnd position before)

/-- Of fields without offsets, each lies behind the sum of the widths before it. -/
theorem layoutEnd_eq_sum {reads : List FieldRead} (h : ∀ read ∈ reads, read.field.offset = none)
    (position : Nat) : layoutEnd position reads = position + (reads.map width).sum := by
  induction reads generalizing position with
  | nil => rfl
  | cons read rest ih =>
    have hhead := h read List.mem_cons_self
    have hrest := fun other hmem => h other (List.mem_cons_of_mem _ hmem)
    show layoutEnd (max position (read.layoutStart position + read.width)) rest = _
    rw [ih hrest, layoutStart, hhead, List.map_cons, List.sum_cons, Option.getD_none]
    omega

theorem readsInPlace_nil (position : Nat) : ReadsInPlace position [] := by
  intro before read after h
  cases before <;> cases h

theorem readsInPlace_cons {position : Nat} {read : FieldRead} {rest : List FieldRead} :
    ReadsInPlace position (read :: rest) ↔
      (read.decoded = true → read.plan.start = read.layoutStart position) ∧
        ReadsInPlace (max position (read.layoutStart position + read.width)) rest := by
  constructor
  · intro h
    refine ⟨h [] read rest rfl, ?_⟩
    intro before other after hsplit
    exact h (read :: before) other after (by rw [hsplit, List.cons_append])
  · rintro ⟨hhead, hrest⟩ before other after hsplit
    cases before with
    | nil =>
      obtain ⟨rfl, -⟩ := List.cons.inj hsplit
      exact hhead
    | cons first before =>
      obtain ⟨rfl, htail⟩ := List.cons.inj hsplit
      exact hrest before other after htail

/-! ### When the loop reads every field in its place -/

/-- Behind a skipped field: no field without an offset fits behind the decoded ones. -/
def NoneSlipsIn (frame : StreamFrameDefinition) (raw : List UInt8) (readableLimit : Nat) :
    List StreamFieldDefinition → Nat → StreamFieldMap → Prop
  | [], _, _ => True
  | field :: rest, cursor, parsedFields =>
    match resolveFieldDecodePlan frame field raw readableLimit cursor parsedFields with
    | .error _ => True
    | .ok plan =>
      if plan.start ≤ readableLimit ∧ plan.end ≤ readableLimit then
        field.offset ≠ none ∧ NoneSlipsIn frame raw readableLimit rest (max cursor plan.end)
          (parsedFields.insert field.name (decodeFieldValue field raw plan))
      else NoneSlipsIn frame raw readableLimit rest cursor parsedFields

/-- From the first field that reaches past the payload on, no field without an offset fits
behind the decoded ones. -/
def NoneSlipsBack (frame : StreamFrameDefinition) (raw : List UInt8) (readableLimit : Nat) :
    List StreamFieldDefinition → Nat → StreamFieldMap → Prop
  | [], _, _ => True
  | field :: rest, cursor, parsedFields =>
    match resolveFieldDecodePlan frame field raw readableLimit cursor parsedFields with
    | .error _ => True
    | .ok plan =>
      if plan.start ≤ readableLimit ∧ plan.end ≤ readableLimit then
        NoneSlipsBack frame raw readableLimit rest (max cursor plan.end)
          (parsedFields.insert field.name (decodeFieldValue field raw plan))
      else NoneSlipsIn frame raw readableLimit rest cursor parsedFields

variable {frame : StreamFrameDefinition} {raw : List UInt8} {readableLimit : Nat}
  {fields : List StreamFieldDefinition}

/-- Past a skipped field the layout is past the payload, so only offsets can be right. -/
theorem readsInPlace_skipped (hprofile : frame.runtimeProfile = true) {position cursor : Nat}
    (hpast : readableLimit < position) (parsedFields : StreamFieldMap) :
    ReadsInPlace position (fieldReads frame raw readableLimit fields cursor parsedFields) ↔
      NoneSlipsIn frame raw readableLimit fields cursor parsedFields := by
  induction fields generalizing position cursor parsedFields with
  | nil => exact iff_of_true (readsInPlace_nil _) trivial
  | cons field rest ih =>
    unfold fieldReads NoneSlipsIn
    cases hplan : resolveFieldDecodePlan frame field raw readableLimit cursor parsedFields with
    | error stop => exact iff_of_true (readsInPlace_nil _) trivial
    | ok plan =>
      obtain ⟨hdescribes, -⟩ := resolveFieldDecodePlan_eq_ok hplan
      simp only
      split_ifs with hfits
      · rw [readsInPlace_cons, ih (by omega)]
        refine and_congr_left fun _ => ?_
        show (true = true → plan.start = field.offset.getD position) ↔ field.offset ≠ none
        cases hoffset : field.offset with
        | some offset => simp [hdescribes.start_eq, hoffset]
        | none =>
          simp only [Option.getD_none, ne_eq, not_true_eq_false, iff_false, forall_true_left]
          omega
      · rw [readsInPlace_cons, ih (by omega)]
        exact and_iff_right fun h => by cases h

/-- **The loop reads in place exactly when no field slips back.** -/
theorem readsInPlace_iff (hprofile : frame.runtimeProfile = true) (cursor : Nat)
    (parsedFields : StreamFieldMap) :
    ReadsInPlace cursor (fieldReads frame raw readableLimit fields cursor parsedFields) ↔
      NoneSlipsBack frame raw readableLimit fields cursor parsedFields := by
  induction fields generalizing cursor parsedFields with
  | nil => exact iff_of_true (readsInPlace_nil _) trivial
  | cons field rest ih =>
    unfold fieldReads NoneSlipsBack
    cases hplan : resolveFieldDecodePlan frame field raw readableLimit cursor parsedFields with
    | error stop => exact iff_of_true (readsInPlace_nil _) trivial
    | ok plan =>
      obtain ⟨hdescribes, -⟩ := resolveFieldDecodePlan_eq_ok hplan
      have hend := hdescribes.end_eq
      have hstart := hdescribes.start_eq
      simp only
      split_ifs with hfits
      · rw [readsInPlace_cons]
        have hposition : max cursor (layoutStart ⟨field, plan, true⟩ cursor
            + width ⟨field, plan, true⟩) = max cursor plan.end := by
          rw [hend, hstart]
          rfl
        rw [hposition, ih]
        exact and_iff_right fun _ => hstart
      · rw [readsInPlace_cons]
        have hpast : readableLimit < max cursor (layoutStart ⟨field, plan, false⟩ cursor
            + width ⟨field, plan, false⟩) := by
          have : layoutStart ⟨field, plan, false⟩ cursor
              + width ⟨field, plan, false⟩ = plan.end := by
            rw [hend, hstart]
            rfl
          omega
        rw [readsInPlace_skipped hprofile hpast]
        exact and_iff_right fun h => by cases h

/-- The bytes of a frame that its fields may lie in: all but the CRC. -/
def payloadEnd (frame : StreamFrameDefinition) (raw : List UInt8) : Nat :=
  raw.length - streamCrcWidth frame.crc.type

/-- The reads of a whole frame. -/
def frameReads (frame : StreamFrameDefinition) (raw : List UInt8) : List FieldRead :=
  fieldReads frame raw (payloadEnd frame raw) frame.fields 0 ∅

/-- Three fields behind one another: a byte, a word and a byte. -/
def slippingFrame : StreamFrameDefinition where
  name := "slipping"
  header := [0xAA]
  runtimeProfile := true
  fields := [{ name := "head" }, { name := "wide", type := .u32Be }, { name := "tail" }]

end ProtoScope.Scripting
