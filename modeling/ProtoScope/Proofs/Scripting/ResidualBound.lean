/-
How much a push can leave in the buffer.

The scan stops for four reasons: nothing is left, no header is found, a length field is not
all there, or a frame is not.  In each the bytes that stay are fewer than something the
schema fixes: the longest header, the end of a length field, or the capacity no frame
length passes.  So the buffer never holds that many between two pushes, whatever the host
does, and a chunk that leaves them room is received whole.
-/
import ProtoScope.Proofs.Scripting.ByteConservation
import ProtoScope.Proofs.Scripting.StreamRun
import ProtoScope.Scripting.StreamSchema

namespace ProtoScope.Scripting

open Library FrameStreamConfig

/-- Where the frame's length field ends; 0 without one. -/
def StreamFrameDefinition.lengthFieldEnd (frame : StreamFrameDefinition) : Nat :=
  match frame.len with
  | none => 0
  | some len => len.offset + streamValueWidth len.type

namespace FrameStreamConfig

/-- The longest header, the frame capacity and the end of the farthest length field. -/
def residualBound (config : FrameStreamConfig) : Nat :=
  config.frames.foldl (fun bound frame => max bound frame.lengthFieldEnd)
    (max config.maxHeaderLength config.bufferDefinition.capacity)

variable {config : FrameStreamConfig} {options : StreamParseOptions} {w : List UInt8}

theorem le_foldl_max {α : Type} (f : α → Nat) (l : List α) (start : Nat) :
    start ≤ l.foldl (fun bound a => max bound (f a)) start ∧
      ∀ a ∈ l, f a ≤ l.foldl (fun bound a => max bound (f a)) start := by
  induction l generalizing start with
  | nil => exact ⟨Nat.le_refl _, fun a h => by cases h⟩
  | cons head rest ih =>
    obtain ⟨hstart, hrest⟩ := ih (max start (f head))
    rw [List.foldl_cons]
    refine ⟨by omega, fun a ha => ?_⟩
    rcases List.mem_cons.mp ha with rfl | ha
    · omega
    · exact hrest a ha

theorem maxHeaderLength_le_bound (config : FrameStreamConfig) :
    config.maxHeaderLength ≤ config.residualBound :=
  (Nat.le_max_left _ _).trans (le_foldl_max _ _ _).1

theorem capacity_le_bound (config : FrameStreamConfig) :
    config.bufferDefinition.capacity ≤ config.residualBound :=
  (Nat.le_max_right _ _).trans (le_foldl_max _ _ _).1

theorem lengthFieldEnd_le_bound {frame : StreamFrameDefinition} (h : frame ∈ config.frames) :
    frame.lengthFieldEnd ≤ config.residualBound :=
  (le_foldl_max _ _ _).2 frame h

/-! ### Why an analysis waits -/

theorem declaredFrameLength_needMore {frame : StreamFrameDefinition}
    (h : config.declaredFrameLength frame w = .error .needMore) :
    w.length < frame.lengthFieldEnd := by
  unfold declaredFrameLength resolveRuntimeProfileFrameLength setInvalidLengthError frameError at h
  unfold StreamFrameDefinition.lengthFieldEnd
  split at h
  · split at h <;> cases h
  · cases hsize : frame.size with
    | some size => simp [hsize] at h
    | none =>
      cases hlen : frame.len with
      | none => simp [hsize, hlen] at h
      | some len =>
        simp only [hsize, hlen] at h
        unfold resolveLengthFieldFrameLength setInvalidLengthError frameError at h
        cases hsum : checkedAddSize len.offset (streamValueWidth len.type) with
        | none => simp [hsum] at h
        | some lengthFieldEnd =>
          have := checkedAddSize_eq hsum
          simp only [hsum] at h
          split at h
          · simp only
            omega
          · repeat' split at h
            all_goals cases h

theorem resolveFrameLength_needMore {frame : StreamFrameDefinition}
    (h : config.resolveFrameLength frame w = .error .needMore) :
    w.length < frame.lengthFieldEnd := by
  unfold resolveFrameLength at h
  cases hdeclared : config.declaredFrameLength frame w with
  | error stop =>
    rw [hdeclared] at h
    cases h
    exact declaredFrameLength_needMore hdeclared
  | ok frameLength =>
    rw [hdeclared] at h
    change config.validateResolvedFrameLength frame frameLength = _ at h
    unfold validateResolvedFrameLength setInvalidLengthError frameError at h
    split_ifs at h <;> cases h

theorem resolveFieldDecodePlan_ne_needMore (frame : StreamFrameDefinition)
    (field : StreamFieldDefinition) (raw : List UInt8) (readableLimit cursor : Nat)
    (parsedFields : StreamFieldMap) :
    resolveFieldDecodePlan frame field raw readableLimit cursor parsedFields
      ≠ .error .needMore := by
  intro h
  unfold resolveFieldDecodePlan setCountResolveError setFieldDecodeError frameError at h
  simp only at h
  repeat' split at h
  all_goals cases h

theorem decodeFrameFields_ne_needMore (frame : StreamFrameDefinition) (raw : List UInt8)
    (readableLimit : Nat) (fields : List StreamFieldDefinition) (cursor : Nat)
    (parsedFields : StreamFieldMap) :
    decodeFrameFields frame raw readableLimit fields cursor parsedFields
      ≠ .error .needMore := by
  induction fields generalizing cursor parsedFields with
  | nil => exact fun h => by cases h
  | cons field rest ih =>
    unfold decodeFrameFields
    cases hplan : resolveFieldDecodePlan frame field raw readableLimit cursor parsedFields with
    | error stop =>
      intro h
      cases h
      exact resolveFieldDecodePlan_ne_needMore _ _ _ _ _ _ hplan
    | ok plan =>
      simp only
      split_ifs
      · exact ih _ _
      · exact ih _ _
      · exact fun h => by cases h

/-- The checks of a complete frame do not wait. -/
theorem decodeFrame_ne_needMore (config : FrameStreamConfig) (frame : StreamFrameDefinition)
    (raw : List UInt8) (options : StreamParseOptions) :
    config.decodeFrame frame raw options ≠ .error .needMore := by
  intro h
  unfold decodeFrame at h
  simp only [bind, Except.bind] at h
  cases hcrc : validateFrameCrc frame raw with
  | error stop =>
    rw [hcrc] at h
    cases h
    unfold validateFrameCrc frameError at hcrc
    simp only at hcrc
    split_ifs at hcrc
    cases hcrc
  | ok _ =>
    rw [hcrc] at h
    simp only at h
    cases hfields : decodeFrameFields frame raw (raw.length - streamCrcWidth frame.crc.type)
        frame.fields 0 ∅ with
    | error stop =>
      rw [hfields] at h
      cases h
      exact decodeFrameFields_ne_needMore _ _ _ _ _ _ hfields
    | ok parsedFields =>
      rw [hfields] at h
      simp only at h
      split at h <;> cases h

/-- **An analysis waits for a length field or for a frame within the capacity.** -/
theorem analyzeFrame_needMore {frame : StreamFrameDefinition} (hmem : frame ∈ config.frames)
    (hcapacity : 0 < config.bufferDefinition.capacity)
    (h : config.analyzeFrame frame w options = .error .needMore) : w.length < config.residualBound := by
  by_cases hne : w = []
  · have := config.capacity_le_bound
    rw [hne, List.length_nil]
    omega
  cases hlen : config.resolveFrameLength frame w with
  | error stop =>
    rw [analyzeFrame_of_stop hne hlen] at h
    cases h
    exact (resolveFrameLength_needMore hlen).trans_le (lengthFieldEnd_le_bound hmem)
  | ok n =>
    have hle := (resolveFrameLength_eq_ok hlen).2 hcapacity
    rw [analyzeFrame_of_length hne hlen] at h
    split_ifs at h with hshort hsmall
    · exact hshort.trans_le (hle.trans config.capacity_le_bound)
    · cases h
    · cases hdecode : config.decodeFrame frame (w.take n) options with
      | error stop =>
        rw [hdecode] at h
        cases h
        exact absurd hdecode (config.decodeFrame_ne_needMore frame (w.take n) options)
      | ok parsed =>
        rw [hdecode] at h
        cases h

/-- **The scan waits only on a short window.** -/
theorem length_lt_of_waits (hcapacity : 0 < config.bufferDefinition.capacity)
    (h : config.byteNext options w = none) : w.length < config.residualBound := by
  have hbound := config.capacity_le_bound
  by_cases hne : w = []
  · rw [hne, List.length_nil]
    omega
  by_cases hcandidates : config.matchedCandidates w 0 = []
  · rw [byteNext_of_no_candidate hne hcandidates] at h
    split_ifs at h with hnoise
    have := config.maxHeaderLength_le_bound
    omega
  · rw [byteNext_of_candidates options hcandidates] at h
    split at h
    · cases h
    · rename_i hwait
      obtain ⟨-, hmore | ⟨frame, hframe, hstop⟩⟩ := analyzeCandidates_eq_needMore.mp hwait
      · cases hmore
      · exact analyzeFrame_needMore (mem_matchedCandidates.mp hframe).1 hcapacity hstop
    · rename_i error herror
      cases error with
      | some error => cases h
      | none => exact absurd ((analyzeCandidates_eq_error herror).2.2.2 rfl).1 hcandidates

end FrameStreamConfig

/-- What the parser of a schema leaves buffered stays below this. -/
def StreamSchema.residualBound (schema : StreamSchema) : Nat :=
  FrameStreamConfig.residualBound { schema with }

namespace FrameStreamParser

variable {schema : StreamSchema} {parser : FrameStreamParser} {options : StreamParseOptions}

theorem residualBound_of_reachable
    (h : Reachable schema.bufferDefinition schema.frames parser) :
    parser.residualBound = schema.residualBound := by
  obtain ⟨hbuffer, hframes, -⟩ := h.spec
  unfold StreamSchema.residualBound residualBound
    maxHeaderLength
  rw [hbuffer, hframes]

/-- **The residual is short in every reachable state.** -/
theorem size_lt_residualBound (h : Reachable schema.bufferDefinition schema.frames parser) :
    parser.buffer.size < schema.residualBound := by
  have hpos : 0 < schema.residualBound :=
    schema.buffer_loaded.capacity_pos.trans_le
      (capacity_le_bound { schema with })
  induction h with
  | create => exact hpos
  | reset h ih => exact hpos
  | @push parser bytes options h ih =>
    by_cases hbytes : bytes = []
    · simpa [pushBytes, hbytes] using ih
    · obtain ⟨hbuffer, hframes, -⟩ := h.spec
      obtain ⟨hconfig, -, hcontents, -⟩ :=
        pushBytes_spec options (by rw [hframes]; exact schema.frames_ne) hbytes
      rw [← residualBound_of_reachable h, ← ByteRingBuffer.length_contents, hcontents]
      have hwaits : parser.byteNext options _ = none :=
        (parser.byteScanner options).next_residual (parser.appendIncomingBytes bytes).1.buffer.contents
      refine length_lt_of_waits ?_ hwaits
      rw [hbuffer]
      exact schema.buffer_loaded.capacity_pos
  | @setProfile parser parser' frameName profile h hset ih =>
    unfold setRuntimeProfile at hset
    split at hset
    · cases hset
    · simp only at hset
      split_ifs at hset
      cases hset
      exact ih
  | @clearProfile parser parser' frameName h hclear ih =>
    unfold clearRuntimeProfile clearRuntimeProfiles at hclear
    split at hclear
    · cases hclear
      exact ih
    · split_ifs at hclear
      cases hclear
      exact ih

/-! ### Chunks that leave room -/

/-- The scan reports what the append said of the overflow, and no overflow of its own. -/
theorem scanLoop_overflow (options : StreamParseOptions) (fuel : Nat) (parser : FrameStreamParser)
    (batch : StreamParseBatch) :
    (scanLoop options fuel parser batch).2.overflowed = batch.overflowed ∧
      (scanLoop options fuel parser batch).2.droppedBytes = batch.droppedBytes ∧
      ∀ error ∈ (scanLoop options fuel parser batch).2.errors, error.code = .overflow →
        error ∈ batch.errors := by
  induction fuel generalizing parser batch with
  | zero => exact ⟨rfl, rfl, fun error h _ => h⟩
  | succ fuel ih =>
    by_cases hnil : parser.buffer.contents = []
    · rw [scanLoop, if_pos (buffer_empty_iff.mpr hnil)]
      exact ⟨rfl, rfl, fun error h _ => h⟩
    rw [scanLoop, if_neg (by rw [buffer_empty_iff]; exact hnil)]
    rcases scanStep_cases options batch hnil with
      ⟨hstep, -⟩ | ⟨k, message, -, -, hstep⟩ | ⟨k, message, -, hstep⟩ |
        ⟨frame, n, -, hstep⟩ | ⟨error, hnext, hstep⟩ <;> rw [hstep]
    · exact ⟨rfl, rfl, fun error h _ => h⟩
    · refine ⟨rfl, rfl, fun error h hcode => ?_⟩
      rcases List.mem_append.mp h with h | h
      · exact h
      · cases List.mem_singleton.mp h
        cases hcode
    · obtain ⟨hflag, hdropped, herrors⟩ :=
        ih (parser.discardFront k) (batch.pushError (noiseError message k))
      refine ⟨hflag, hdropped, fun error h hcode => ?_⟩
      rcases List.mem_append.mp (herrors error h hcode) with h | h
      · exact h
      · cases List.mem_singleton.mp h
        cases hcode
    · exact ih _ _
    · obtain ⟨hflag, hdropped, herrors⟩ := ih (parser.discardFront 1) (batch.pushError error)
      refine ⟨hflag, hdropped, fun other h hcode => ?_⟩
      rcases List.mem_append.mp (herrors other h hcode) with h | h
      · exact h
      · cases List.mem_singleton.mp h
        exact absurd hcode (byteNext_error_code hnext).1

/-- A push that reports no overflow, and whose events and residual are all the bytes the
buffer held and all the new ones. -/
structure ReceivesWhole (parser : FrameStreamParser) (options : StreamParseOptions)
    (chunk : List UInt8) : Prop where
  overflowed : (parser.pushBytes chunk options).2.overflowed = false
  droppedBytes : (parser.pushBytes chunk options).2.droppedBytes = 0
  errors : ∀ error ∈ (parser.pushBytes chunk options).2.errors, error.code ≠ .overflow
  accounted : (parser.pushBytes chunk {}).2.Accounted (parser.buffer.contents ++ chunk)
    (parser.pushBytes chunk {}).1.buffer.contents

theorem appendIncomingBytes_quiet {chunk : List UInt8}
    (h : (parser.appendIncomingBytes chunk).2.overflowed = false) :
    (parser.appendIncomingBytes chunk).2.droppedBytes = 0 ∧
      (parser.appendIncomingBytes chunk).2.errors = [] := by
  obtain ⟨-, hflag⟩ := appendIncomingBytes_dropped parser chunk
  rw [hflag, decide_eq_false_iff_not, Nat.not_lt, Nat.le_zero] at h
  refine ⟨h, ?_⟩
  unfold appendIncomingBytes updateNearOverflowStatus at h ⊢
  simp only at h ⊢
  split_ifs at h ⊢ <;> first | rfl | (simp only [StreamParseBatch.pushError] at h; omega)

theorem receivesWhole_of_fits {chunk : List UInt8}
    (h : (parser.appendIncomingBytes chunk).2.overflowed = false) :
    parser.ReceivesWhole options chunk := by
  obtain ⟨-, haccounted, -⟩ := pushBytes_accounted parser chunk options
  rw [(appendIncomingBytes_lossless h).1] at haccounted
  obtain ⟨hdropped, herrors⟩ := appendIncomingBytes_quiet h
  by_cases hchunk : chunk = []
  · refine ⟨?_, ?_, ?_, haccounted⟩ <;> simp [pushBytes, hchunk]
  obtain ⟨hflag, hcount, hkept⟩ := scanLoop_overflow options
    (parser.appendIncomingBytes chunk).1.buffer.size (parser.appendIncomingBytes chunk).1
    (parser.appendIncomingBytes chunk).2
  rw [herrors] at hkept
  by_cases hframes : (parser.appendIncomingBytes chunk).1.frames = []
  · refine ⟨?_, ?_, ?_, haccounted⟩ <;> simp [pushBytes, hchunk, hframes, h, hdropped, herrors]
  · refine ⟨?_, ?_, ?_, haccounted⟩ <;> unfold pushBytes <;>
      simp only [if_neg hchunk, if_neg hframes]
    · exact hflag.trans h
    · exact hcount.trans hdropped
    · exact fun error hmem hcode => by cases hkept error hmem hcode

theorem receivesWhole_nil : parser.ReceivesWhole options [] := by
  refine receivesWhole_of_fits ?_
  obtain ⟨hdropped, hflag⟩ := appendIncomingBytes_dropped parser []
  have hsize : parser.buffer.size ≤ parser.buffer.capacity := parser.buffer.size_le
  rw [hflag, hdropped, decide_eq_false_iff_not, (ensureAppendCapacity_spec _ _).2.2,
    List.length_nil]
  split_ifs <;> omega

/-- In lossless mode, what fits the full capacity is received whole. -/
theorem receivesWhole_of_room {chunk : List UInt8}
    (hlossless : parser.bufferDefinition.dropOldest = false)
    (hword : parser.bufferDefinition.maxCapacity ≤ sizeMax)
    (h : parser.buffer.size + chunk.length ≤ parser.bufferDefinition.maxCapacity) :
    parser.ReceivesWhole options chunk := by
  refine receivesWhole_of_fits ?_
  obtain ⟨hdropped, hflag⟩ := appendIncomingBytes_dropped parser chunk
  rw [hflag, hdropped, decide_eq_false_iff_not, (ensureAppendCapacity_spec _ _).2.2, hlossless]
  unfold requiredCapacity
  simp only [Bool.false_eq_true, if_false]
  split_ifs <;> omega

/-- **The residual bound.**  Whatever the host does with the parser of an accepted schema, a
push leaves fewer bytes buffered than the longest header, the frame capacity or the end of
the farthest length field; so in lossless mode chunks that leave that much of the full
capacity free are received whole, one after the other. -/
theorem pushBytes_residual_lt
    (h : Reachable schema.bufferDefinition schema.frames parser) :
    (∀ bytes options, (parser.pushBytes bytes options).1.buffer.size < schema.residualBound) ∧
      (schema.bufferDefinition.dropOldest = false → ∀ chunks options,
        (∀ chunk ∈ chunks,
          chunk.length ≤ schema.bufferDefinition.maxCapacity - schema.residualBound) →
        ∀ before chunk after, chunks = before ++ chunk :: after →
          (parser.pushAll options before).1.ReceivesWhole options chunk) := by
  refine ⟨fun bytes options => size_lt_residualBound (h.push bytes options), ?_⟩
  intro hlossless chunks options hsmall before chunk after hsplit
  have hreach : Reachable schema.bufferDefinition schema.frames (parser.pushAll options before).1 := by
    clear hsplit hsmall
    induction before generalizing parser with
    | nil => exact h
    | cons first rest ih => exact ih (h.push first options)
  by_cases hnil : chunk = []
  · rw [hnil]
    exact receivesWhole_nil
  have hlength := List.length_pos_iff.mpr hnil
  have hchunk := hsmall chunk (by rw [hsplit]; exact List.mem_append_right _ List.mem_cons_self)
  have hsize := size_lt_residualBound hreach
  have hmax := schema.buffer_loaded.maxCapacity_le
  obtain ⟨hbuffer, -, -⟩ := hreach.spec
  refine receivesWhole_of_room (by rw [hbuffer]; exact hlossless) ?_ ?_
  · rw [hbuffer]
    unfold int64Max at hmax
    unfold sizeMax
    omega
  · rw [hbuffer]
    omega

/-- One frame of three bytes in a buffer for eight that may grow to sixteen. -/
def threeByteSchema : StreamSchema where
  bufferDefinition := { capacity := 8, maxCapacity := 16 }
  frames := [{ name := "sample", header := [0xAA], size := some 3 }]
  buffer_loaded := ⟨by decide, by decide, by decide⟩
  frames_ne := by decide
  frame_names := by decide
  frames_loaded := by
    rintro frame hframe
    rw [List.mem_singleton.mp hframe]
    exact ⟨by decide, by decide, by decide, by decide, by rintro len ⟨⟩, by simp, by decide⟩

theorem pushBytes_residual_lt_three :
    let parser := create threeByteSchema.bufferDefinition threeByteSchema.frames
    (parser.pushBytes [0xAA, 1, 2, 0xAA, 3] {}).1.buffer.size < 8 ∧
      (parser.pushAll {} [[0xAA, 1, 2, 0xAA]]).1.ReceivesWhole {} [1, 2, 3, 4, 5, 6, 7, 8] := by
  obtain ⟨hsize, hwhole⟩ := @pushBytes_residual_lt threeByteSchema _ .create
  exact ⟨hsize [0xAA, 1, 2, 0xAA, 3] {},
    hwhole rfl [[0xAA, 1, 2, 0xAA], [1, 2, 3, 4, 5, 6, 7, 8]] {} (by decide)
      [[0xAA, 1, 2, 0xAA]] [1, 2, 3, 4, 5, 6, 7, 8] [] rfl⟩

end FrameStreamParser

end ProtoScope.Scripting
