/-
What the decode of a complete frame reads.

A plan is decoded only when it ends before the CRC, so every element of a value is there,
whole, among the payload bytes, and the sizes on the way are exact.  The integers a frame
yields are words, so the counts that refer to them are the exact ones.  The length field is
another matter: it is read from the window before there is a frame, and nothing keeps it
inside the frame whose length it gives.
-/
import ProtoScope.Proofs.Scripting.CountExpressions
import ProtoScope.Proofs.Scripting.FieldLayout

namespace ProtoScope.Scripting

open FrameStreamConfig

/-! ### Integers are words -/

variable {raw : List UInt8} {type : StreamValueType}

theorem decodeInteger_word {offset : Nat} {value : Int}
    (h : decodeInteger raw offset type = some value) : InInt64 value := by
  unfold decodeInteger at h
  simp only at h
  split_ifs at h
  · cases h
    have := (readUnsignedValue (raw.drop offset) (streamValueTypeInfo type).width
      (streamValueTypeInfo type).littleEndian).toNat_lt
    unfold InInt64 int64Min int64Max
    omega
  · generalize readUnsignedValue (raw.drop offset) (streamValueTypeInfo type).width
      (streamValueTypeInfo type).littleEndian = rawValue at h
    unfold InInt64 int64Min int64Max
    split at h
    · cases h
      have hlow := rawValue.toUInt8.toInt8.le_toInt
      have hhigh := rawValue.toUInt8.toInt8.toInt_lt
      omega
    · cases h
      have hlow := rawValue.toUInt16.toInt16.le_toInt
      have hhigh := rawValue.toUInt16.toInt16.toInt_lt
      omega
    · cases h
      have hlow := rawValue.toInt32.le_toInt
      have hhigh := rawValue.toInt32.toInt_lt
      omega
    · cases h

/-- Every integer a map holds is a word. -/
def StreamFieldMap.Words (parsed : StreamFieldMap) : Prop :=
  ∀ name value, parsed.lookup name = some (.integer value) → InInt64 value

theorem decodeFieldValue_word {field : StreamFieldDefinition} {plan : FieldDecodePlan} {value : Int}
    (h : decodeFieldValue field raw plan = .integer value) : InInt64 value := by
  unfold decodeFieldValue at h
  split_ifs at h
  cases hdecode : decodeInteger raw plan.start field.type with
  | none =>
    rw [hdecode] at h
    cases h
    decide
  | some decoded =>
    rw [hdecode] at h
    cases h
    exact decodeInteger_word hdecode

theorem words_store {parsed : StreamFieldMap} (h : StreamFieldMap.Words parsed)
    (raw : List UInt8) (read : FieldRead) : StreamFieldMap.Words (read.store raw parsed) := by
  intro name value hlookup
  unfold FieldRead.store at hlookup
  split_ifs at hlookup
  · by_cases hname : name = read.field.name
    · subst hname
      rw [AList.lookup_insert] at hlookup
      exact decodeFieldValue_word (Option.some.inj hlookup)
    · rw [AList.lookup_insert_ne hname] at hlookup
      exact h name value hlookup
  · exact h name value hlookup

theorem words_foldl (raw : List UInt8) (reads : List FieldRead) {parsed : StreamFieldMap}
    (h : StreamFieldMap.Words parsed) :
    StreamFieldMap.Words (reads.foldl (FieldRead.store raw) parsed) := by
  induction reads generalizing parsed with
  | nil => exact h
  | cons read rest ih => exact ih (words_store h raw read)

/-! ### Every element is there -/

/-- Every element of a read is there, whole, among these bytes. -/
def FieldRead.ReadsWhole (read : FieldRead) (bytes : List UInt8) : Prop :=
  if read.field.type = .bytes then
    ((bytes.drop read.plan.start).take read.plan.count).length = read.plan.count
  else if streamValueTypeIsFloat read.field.type then
    ∀ index < read.plan.count,
      (decodeFloat bytes (read.plan.start + index * read.plan.width) read.field.type).isSome
  else
    ∀ index < read.plan.count,
      (decodeInteger bytes (read.plan.start + index * read.plan.width) read.field.type).isSome

theorem decodeInteger_isSome {bytes : List UInt8} {offset : Nat} (hbytes : type ≠ .bytes)
    (hfloat : streamValueTypeIsFloat type = false)
    (h : offset + streamValueWidth type ≤ bytes.length) :
    (decodeInteger bytes offset type).isSome := by
  unfold streamValueWidth at h
  unfold streamValueTypeIsFloat at hfloat
  have hshort : ¬ bytes.length < offset := by omega
  have hrest : ¬ bytes.length - offset < (streamValueTypeInfo type).width := by omega
  have hguard : ((streamValueTypeInfo type).isFloat || type == .bytes ||
      decide (bytes.length < offset) ||
      decide (bytes.length - offset < (streamValueTypeInfo type).width)) = false := by
    simp [hfloat, hbytes, hshort, hrest]
  unfold decodeInteger
  simp only [hguard]
  cases type <;> rfl

theorem decodeFloat_isSome {bytes : List UInt8} {offset : Nat}
    (hfloat : streamValueTypeIsFloat type = true)
    (h : offset + streamValueWidth type ≤ bytes.length) :
    (decodeFloat bytes offset type).isSome := by
  unfold streamValueWidth at h
  unfold streamValueTypeIsFloat at hfloat
  have hshort : ¬ bytes.length < offset := by omega
  have hrest : ¬ bytes.length - offset < (streamValueTypeInfo type).width := by omega
  unfold decodeFloat
  simp [hfloat, hshort, hrest]

/-- Where an element of a plan ends. -/
theorem element_end_le {start count width limit index : Nat} (h : start + count * width ≤ limit)
    (hindex : index < count) : start + index * width + width ≤ limit := by
  have hstep : index * width + width ≤ count * width := by
    calc index * width + width = (index + 1) * width := (Nat.succ_mul index width).symm
      _ ≤ count * width := Nat.mul_le_mul_right _ hindex
  omega

/-- A value past which nothing is looked at reads the same when the rest is cut off. -/
theorem decodeInteger_take {offset limit : Nat} (hlimit : limit ≤ raw.length)
    (h : offset + streamValueWidth type ≤ limit) :
    decodeInteger raw offset type = decodeInteger (raw.take limit) offset type := by
  have hlength : (raw.take limit).length = limit := List.length_take_of_le hlimit
  calc decodeInteger raw offset type
      = decodeInteger (raw.take limit ++ raw.drop limit) offset type := by rw [List.take_append_drop]
    _ = decodeInteger (raw.take limit) offset type := decodeInteger_append (by omega) _

theorem decodeFloat_take {offset limit : Nat} (hlimit : limit ≤ raw.length)
    (h : offset + streamValueWidth type ≤ limit) :
    decodeFloat raw offset type = decodeFloat (raw.take limit) offset type := by
  have hlength : (raw.take limit).length = limit := List.length_take_of_le hlimit
  unfold streamValueWidth at h
  have hwidth : (streamValueTypeInfo type).width ≤ ((raw.take limit).drop offset).length := by
    rw [List.length_drop]
    omega
  have hread := readUnsignedValue_append hwidth (raw.drop limit)
    (streamValueTypeInfo type).littleEndian
  rw [← List.drop_append_of_le_length (by omega), List.take_append_drop] at hread
  unfold decodeFloat
  simp only [hread]
  have hlong : (decide (raw.length < offset) = decide ((raw.take limit).length < offset)) ∧
      (decide (raw.length - offset < (streamValueTypeInfo type).width)
        = decide ((raw.take limit).length - offset < (streamValueTypeInfo type).width)) := by
    constructor <;> exact decide_eq_decide.mpr (by omega)
  rw [hlong.1, hlong.2]

/-- **A decoded read is whole among the bytes up to a limit**, and its value is theirs. -/
theorem readsWhole_of_fits {read : FieldRead} {limit : Nat} (hlimit : limit ≤ raw.length)
    (hwidth : read.plan.width = streamValueWidth read.field.type)
    (h : read.plan.start + read.plan.count * read.plan.width ≤ limit) :
    read.ReadsWhole (raw.take limit) ∧
      decodeFieldValue read.field raw read.plan
        = decodeFieldValue read.field (raw.take limit) read.plan := by
  have hlength : (raw.take limit).length = limit := List.length_take_of_le hlimit
  have hinside : ∀ index < read.plan.count,
      read.plan.start + index * read.plan.width + streamValueWidth read.field.type ≤ limit := by
    intro index hindex
    rw [← hwidth]
    exact element_end_le h hindex
  have hfirst : read.plan.count = 1 →
      read.plan.start + streamValueWidth read.field.type ≤ limit := by
    intro hone
    have := hinside 0 (by omega)
    rwa [Nat.zero_mul, Nat.add_zero] at this
  unfold FieldRead.ReadsWhole decodeFieldValue
  by_cases hbytes : read.field.type = .bytes
  · have hone : read.plan.width = 1 := by rw [hwidth, hbytes]; rfl
    rw [hone, Nat.mul_one] at h
    rw [if_pos hbytes, if_pos (by rw [hbytes]; rfl), if_pos (by rw [hbytes]; rfl)]
    refine ⟨?_, congrArg _ ?_⟩
    · rw [List.length_take, List.length_drop]
      omega
    · rw [List.drop_take, List.take_take]
      congr 1
      omega
  · have hbytes' : ¬ (read.field.type == .bytes) = true := by simpa using hbytes
    rw [if_neg hbytes, if_neg hbytes', if_neg hbytes']
    by_cases hfloat : streamValueTypeIsFloat read.field.type = true
    · rw [if_pos hfloat, if_pos hfloat, if_pos hfloat]
      refine ⟨fun index hindex => decodeFloat_isSome hfloat
        ((hinside index hindex).trans hlength.ge), ?_⟩
      split_ifs with hone
      · rw [decodeFloat_take hlimit (hfirst hone)]
      · refine congrArg _ (List.map_congr_left fun index hindex => ?_)
        rw [decodeFloat_take hlimit (hinside index (List.mem_range.mp hindex))]
    · rw [if_neg hfloat, if_neg hfloat, if_neg hfloat]
      refine ⟨fun index hindex => decodeInteger_isSome hbytes (by simpa using hfloat)
        ((hinside index hindex).trans hlength.ge), ?_⟩
      split_ifs with hone
      · rw [decodeInteger_take hlimit (hfirst hone)]
      · refine congrArg _ (List.map_congr_left fun index hindex => ?_)
        rw [decodeInteger_take hlimit (hinside index (List.mem_range.mp hindex))]

/-- What a read has of its plan, and that a decoded one ends before the limit. -/
theorem plan_of_read {frame : StreamFrameDefinition} {readableLimit : Nat}
    {fields : List StreamFieldDefinition} {cursor : Nat} {parsedFields : StreamFieldMap}
    {read : FieldRead} (h : read ∈ fieldReads frame raw readableLimit fields cursor parsedFields) :
    read.plan.Describes read.field read.plan.start ∧
      (read.decoded = true → read.plan.end ≤ readableLimit) := by
  induction fields generalizing cursor parsedFields with
  | nil => cases h
  | cons field rest ih =>
    unfold fieldReads at h
    cases hplan : resolveFieldDecodePlan frame field raw readableLimit cursor parsedFields with
    | error stop => simp [hplan] at h
    | ok plan =>
      obtain ⟨hdescribes, -⟩ := resolveFieldDecodePlan_eq_ok hplan
      simp only [hplan] at h
      split_ifs at h with hfits
      · rcases List.mem_cons.mp h with rfl | h
        · exact ⟨⟨rfl, hdescribes.width_eq, hdescribes.end_eq, hdescribes.end_le⟩, fun _ => hfits.2⟩
        · exact ih h
      · rcases List.mem_cons.mp h with rfl | h
        · exact ⟨⟨rfl, hdescribes.width_eq, hdescribes.end_eq, hdescribes.end_le⟩,
            fun hdecoded => by cases hdecoded⟩
        · exact ih h
      · cases h

/-! ### The length field -/

/-- The frame length a length field's value stands for. -/
def StreamLengthDefinition.frameLength (len : StreamLengthDefinition) (value : Nat) : Nat :=
  match len.means with
  | .payload => value + len.extra
  | .frame => value

/-- A length taken from the length field: the whole field is in the window. -/
structure StreamLengthDefinition.Gives (len : StreamLengthDefinition) (window : List UInt8)
    (frameLength : Nat) : Prop where
  in_window : len.offset + streamValueWidth len.type ≤ window.length
  no_wrap : len.offset + streamValueWidth len.type ≤ sizeMax ∧ frameLength ≤ sizeMax
  exact_length : ∃ value : Nat, decodeInteger window len.offset len.type = some (value : Int) ∧
    frameLength = len.frameLength value

theorem resolveLengthFieldFrameLength_eq_ok {frame : StreamFrameDefinition}
    {len : StreamLengthDefinition} (hextra : len.extra ≤ sizeMax) {window : List UInt8} {n : Nat}
    (h : resolveLengthFieldFrameLength frame len window = .ok n) :
    len.Gives window n := by
  unfold resolveLengthFieldFrameLength at h
  cases hend : checkedAddSize len.offset (streamValueWidth len.type) with
  | none => simp [hend] at h
  | some lengthFieldEnd =>
    have hsum := checkedAddSize_eq hend
    have hword : lengthFieldEnd ≤ sizeMax :=
      checkedAddSize_le (by cases len.type <;> decide) hend
    simp only [hend] at h
    split_ifs at h with hshort
    cases hdecode : decodeInteger window len.offset len.type with
    | none => simp [hdecode] at h
    | some value =>
      have hvalue := decodeInteger_word hdecode
      simp only [hdecode] at h
      split_ifs at h with hneg
      have hnat : (value.toNat : Int) = value := Int.toNat_of_nonneg (by omega)
      have hle : value.toNat ≤ sizeMax := by
        unfold InInt64 int64Max at hvalue
        unfold sizeMax
        omega
      have hlength : n = len.frameLength value.toNat ∧ n ≤ sizeMax := by
        unfold StreamLengthDefinition.frameLength
        cases hmeans : len.means with
        | frame =>
          rw [hmeans] at h
          cases h
          exact ⟨rfl, hle⟩
        | payload =>
          rw [hmeans] at h
          cases hadd : checkedAddSize value.toNat len.extra with
          | none => simp [hadd] at h
          | some total =>
            simp only [hadd] at h
            cases h
            exact ⟨checkedAddSize_eq hadd, checkedAddSize_le hextra hadd⟩
      exact ⟨by omega, ⟨by omega, hlength.2⟩, value.toNat, by rw [hnat, hdecode], hlength.1⟩

/-- The frame length of a frame with a length field. -/
theorem gives_of_resolveFrameLength {config : FrameStreamConfig} {frame : StreamFrameDefinition}
    (hloaded : frame.Loaded) {len : StreamLengthDefinition} (hlen : frame.len = some len)
    {window : List UInt8} {n : Nat} (h : config.resolveFrameLength frame window = .ok n) :
    len.Gives window n := by
  have hmode := hloaded.one_mode
  have hextra : len.extra ≤ sizeMax := by
    have := (hloaded.len_loaded len hlen).extra_le
    unfold int64Max at this
    unfold sizeMax
    omega
  rw [hlen] at hmode
  have hprofile : frame.runtimeProfile = false := by
    cases hp : frame.runtimeProfile <;> simp [hp] at hmode ⊢
  have hsize : frame.size = none := by
    cases hs : frame.size <;> simp [hs, hprofile] at hmode ⊢
  unfold resolveFrameLength declaredFrameLength at h
  simp only [hprofile, hsize, hlen, Bool.false_eq_true, if_false] at h
  cases hresolve : resolveLengthFieldFrameLength frame len window with
  | error stop =>
    rw [hresolve] at h
    cases h
  | ok declared =>
    rw [hresolve] at h
    obtain ⟨rfl, -⟩ := validateResolvedFrameLength_eq_ok h
    exact resolveLengthFieldFrameLength_eq_ok hextra hresolve

/-! ### A complete frame -/

/-- **Field decoding is in bounds and exact.**  In a complete frame of an accepted schema the
payload is what the CRC leaves; a length field was read whole from the window and its sum did
not wrap; the values are those of the reads; every decoded field is whole among the payload
bytes, which alone decide its value, and its sizes are exact; and every count, in every state
of the loop, is the exact one or an error that says why there is none. -/
theorem completeFrame_exact (schema : StreamSchema) (config : FrameStreamConfig)
    (hbuffer : config.bufferDefinition = schema.bufferDefinition) {frame : StreamFrameDefinition}
    (hframe : frame ∈ schema.frames) {window : List UInt8} {n : Nat}
    (hlength : config.resolveFrameLength frame window = .ok n) (hcomplete : n ≤ window.length)
    (hroom : frame.header.length + streamCrcWidth frame.crc.type ≤ n) :
    let raw := window.take n
    let limit := payloadEnd frame raw
    (raw.length = n ∧ limit + streamCrcWidth frame.crc.type = n) ∧
      (∀ len ∈ frame.len, len.Gives window n) ∧
      (∀ parsed, decodeFrameFields frame raw limit frame.fields 0 ∅ = .ok parsed →
        parsed = (frameReads frame raw).foldl (FieldRead.store raw) ∅) ∧
      (∀ read ∈ frameReads frame raw, read.plan.end ≤ sizeMax ∧
        read.plan.end = read.plan.start + read.plan.count * read.plan.width ∧
        read.plan.width = streamValueWidth read.field.type ∧
        (read.decoded = true → read.plan.end ≤ limit ∧ read.ReadsWhole (raw.take limit) ∧
          decodeFieldValue read.field raw read.plan
            = decodeFieldValue read.field (raw.take limit) read.plan)) ∧
      (∀ before after, frameReads frame raw = before ++ after → ∀ field ∈ frame.fields, ∀ start,
        resolveFieldCount field (before.foldl (FieldRead.store raw) ∅) n limit start =
          (exactFieldCount field ⟨before.foldl (FieldRead.store raw) ∅, n, limit, start,
            streamValueWidth field.type⟩).mapError field.faultMessage) := by
  have hraw : (window.take n).length = n := List.length_take_of_le hcomplete
  have hlimit : payloadEnd frame (window.take n) + streamCrcWidth frame.crc.type = n := by
    unfold payloadEnd
    omega
  have hloaded := schema.frames_loaded frame hframe
  have hn : (n : Int) ≤ int64Max := by
    have hpos := schema.buffer_loaded.capacity_pos
    have hcapacity := (resolveFrameLength_eq_ok hlength).2 (by rw [hbuffer]; exact hpos)
    have hle := schema.buffer_loaded.capacity_le
    have hmax := schema.buffer_loaded.maxCapacity_le
    rw [hbuffer] at hcapacity
    omega
  refine ⟨⟨hraw, hlimit⟩, fun len hlen => gives_of_resolveFrameLength hloaded hlen hlength,
    fun parsed hparsed => (decodeFrameFields_eq_ok hparsed).2, ?_, ?_⟩
  · intro read hread
    obtain ⟨hplan, hfits⟩ := plan_of_read hread
    refine ⟨hplan.end_le, hplan.end_eq, hplan.width_eq, fun hdecoded => ?_⟩
    have hend := hfits hdecoded
    refine ⟨hend, readsWhole_of_fits (by omega) hplan.width_eq ?_⟩
    rw [← hplan.end_eq]
    exact hend
  · intro before after _ field hfield start
    refine resolveFieldCount_eq (hloaded.fields_loaded field hfield).count_loaded ?_
    refine ⟨words_foldl _ before ?_, ?_, hn, ?_⟩
    · intro name value hlookup
      cases hlookup
    · show payloadEnd frame (window.take n) ≤ n
      omega
    · show 0 < streamValueWidth field.type
      cases field.type <;> decide

/-- One less than the field `count` says. -/
def oneLess : StreamCountExpression :=
  .node .sub 0 1 "" true (.node .field 0 0 "count" true .null .null .null .null .null .nil)
    .null .null .null .null .nil

/-- A frame of four bytes with a count and its values. -/
def countedFrame : StreamFrameDefinition where
  name := "counted"
  header := [0xAA]
  size := some 4
  fields := [{ name := "count", offset := some 1 },
    { name := "values", count := { expression := oneLess } }]

def countedSchema : StreamSchema where
  bufferDefinition := {}
  frames := [countedFrame]
  buffer_loaded := ⟨by decide, by decide, by decide⟩
  frames_ne := by decide
  frame_names := by decide
  frames_loaded := by
    rintro frame hframe
    rw [List.mem_singleton.mp hframe]
    refine ⟨by decide, by decide, by decide, by decide, by rintro len ⟨⟩, ?_, by decide⟩
    rintro field hfield
    rcases List.mem_pair.mp hfield with rfl | rfl
    · exact ⟨by decide, by decide, .absent⟩
    · exact ⟨by decide, by decide, .expression ⟨trivial, by decide⟩⟩

/-- Three counted, so two values behind the count. -/
theorem completeFrame_exact_counted :
    (frameReads countedFrame [0xAA, 3, 7, 8]).Forall fun read =>
      read.plan.end = read.plan.start + read.plan.count * read.plan.width := by
  have h := @completeFrame_exact countedSchema ⟨{}, [countedFrame], ∅⟩ rfl countedFrame
    List.mem_cons_self [0xAA, 3, 7, 8] 4 rfl (by decide) (by decide)
  exact List.forall_iff_forall_mem.mpr fun read hread => (h.2.2.2.1 read hread).2.1

/-- A frame that says its own length, in its fifth byte. -/
def lateLengthFrame : StreamFrameDefinition where
  name := "late"
  header := [0xAA]
  len := some { offset := 4, means := .frame }

/-- One element when the field `kind` is 1. -/
def oneIfFirst : StreamCountExpression :=
  .node .case 0 0 "kind" true .null .null .null .null .null
    (.cons 1 (.node .constant 1 0 "" true .null .null .null .null .null .nil) .nil)

/-- A frame whose count is chosen by a field. -/
def choiceFrame : StreamFrameDefinition where
  name := "choice"
  header := [0xAA]
  size := some 2
  fields := [{ name := "kind", offset := some 1 },
    { name := "values", count := { expression := oneIfFirst } }]

def lateAndChoiceSchema : StreamSchema where
  bufferDefinition := {}
  frames := [lateLengthFrame, choiceFrame]
  buffer_loaded := ⟨by decide, by decide, by decide⟩
  frames_ne := by decide
  frame_names := by decide
  frames_loaded := by
    rintro frame hframe
    rcases List.mem_pair.mp hframe with rfl | rfl
    · refine ⟨by decide, by decide, by decide, by decide, ?_, by rintro field ⟨⟩, by decide⟩
      rintro len ⟨⟩
      exact ⟨by decide, by decide, by decide⟩
    · refine ⟨by decide, by decide, by decide, by decide, by rintro len ⟨⟩, ?_, by decide⟩
      rintro field hfield
      rcases List.mem_pair.mp hfield with rfl | rfl
      · exact ⟨by decide, by decide, .absent⟩
      · exact ⟨by decide, by decide, .expression
        ⟨⟨by decide, (by decide : InInt64 1), trivial⟩, .inl rfl⟩⟩

/-- A frame of three bytes whose length is read from the byte after the next, and a count that
fails with every number in range and every field there. -/
theorem length_past_frame_and_unmatched_case :
    (∃ frame ∈ lateAndChoiceSchema.frames, ∃ len ∈ frame.len, ∃ parsed n,
      FrameStreamConfig.analyzeFrame { lateAndChoiceSchema with } frame [0xAA, 1, 2, 9, 3] {}
        = .ok (parsed, n) ∧ n < len.offset + streamValueWidth len.type) ∧
      ∃ frame ∈ lateAndChoiceSchema.frames, ∃ error,
        FrameStreamConfig.analyzeFrame { lateAndChoiceSchema with } frame [0xAA, 9] {}
          = .error (.recoverableError error) ∧
        error.code = .countResolveFailed ∧ error.message = "case 未匹配且没有 default" := by
  refine ⟨⟨lateLengthFrame, List.mem_cons_self, _, rfl, _, 3, rfl, by decide⟩, ?_⟩
  exact ⟨choiceFrame, List.mem_cons_of_mem _ List.mem_cons_self,
    { code := .countResolveFailed, message := "case 未匹配且没有 default"
      frameName := some "choice", droppedBytes := 0, raw := [0xAA, 9] }, rfl, rfl, rfl⟩

end ProtoScope.Scripting
