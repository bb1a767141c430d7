/-
What the analysis of a candidate depends on.

A frame's length is read from its first bytes and everything after that looks only at the
frame's own bytes.  So a window that already gave an answer gives the same answer with
more bytes behind it: only `needMore` can change.  The facts about a parsed frame that the
rest of the parser uses, its length and its raw bytes, are read off the same way.
-/
import ProtoScope.Scripting.FrameAnalysis

namespace ProtoScope.Scripting

open FrameStreamConfig

/-! ### Reading a value -/

theorem readUnsignedValue_append {bytes : List UInt8} {width : Nat} (h : width ≤ bytes.length)
    (tail : List UInt8) (littleEndian : Bool) :
    readUnsignedValue (bytes ++ tail) width littleEndian
      = readUnsignedValue bytes width littleEndian := by
  unfold readUnsignedValue
  refine List.foldl_ext _ _ _ fun value index hindex => ?_
  have hlt : index < width := List.mem_range.mp hindex
  have hget : ∀ i, i < width → (bytes ++ tail).getD i 0 = bytes.getD i 0 := by
    intro i hi
    rw [List.getD_eq_getElem?_getD, List.getD_eq_getElem?_getD,
      List.getElem?_append_left (by omega)]
  cases littleEndian with
  | true => simp only [if_true, hget index hlt]
  | false => simp only [Bool.false_eq_true, if_false, hget (width - index - 1) (by omega)]

/-- A value inside the bytes does not depend on what follows them. -/
theorem decodeInteger_append {bytes : List UInt8} {offset : Nat} {type : StreamValueType}
    (h : offset + streamValueWidth type ≤ bytes.length) (tail : List UInt8) :
    decodeInteger (bytes ++ tail) offset type = decodeInteger bytes offset type := by
  unfold streamValueWidth at h
  have hwidth : (streamValueTypeInfo type).width ≤ (bytes.drop offset).length := by
    rw [List.length_drop]
    omega
  have hread := readUnsignedValue_append hwidth tail (streamValueTypeInfo type).littleEndian
  rw [← List.drop_append_of_le_length (by omega)] at hread
  unfold decodeInteger
  simp only [hread, List.length_append]
  have hlong : (decide (bytes.length + tail.length < offset) = decide (bytes.length < offset)) ∧
      (decide (bytes.length + tail.length - offset < (streamValueTypeInfo type).width)
        = decide (bytes.length - offset < (streamValueTypeInfo type).width)) := by
    constructor <;> exact decide_eq_decide.mpr (by omega)
  rw [hlong.1, hlong.2]

/-! ### The frame length -/

theorem checkedAddSize_eq {left right sum : Nat} (h : checkedAddSize left right = some sum) :
    sum = left + right := by
  unfold checkedAddSize at h
  split at h
  · cases h
  · exact (Option.some.inj h).symm

variable {frame : StreamFrameDefinition} {window : List UInt8} {config : FrameStreamConfig}
  {stop : AnalyzeStop} {options : StreamParseOptions}

/-- A length field that is all there reads the same in a longer window. -/
theorem resolveLengthFieldFrameLength_append {len : StreamLengthDefinition}
    (h : resolveLengthFieldFrameLength frame len window ≠ .error .needMore) (tail : List UInt8) :
    resolveLengthFieldFrameLength frame len (window ++ tail)
      = resolveLengthFieldFrameLength frame len window := by
  unfold resolveLengthFieldFrameLength at h ⊢
  cases hend : checkedAddSize len.offset (streamValueWidth len.type) with
  | none => rfl
  | some lengthFieldEnd =>
      simp only [hend] at h ⊢
      have hsum := checkedAddSize_eq hend
      by_cases hshort : window.length < lengthFieldEnd
      · exact absurd (if_pos hshort) h
      · rw [if_neg hshort, if_neg (by rw [List.length_append]; omega),
          decodeInteger_append (by omega) tail]

theorem validateResolvedFrameLength_eq_ok {frameLength n : Nat}
    (h : config.validateResolvedFrameLength frame frameLength = .ok n) :
    n = frameLength ∧ 0 < n ∧
      (0 < config.bufferDefinition.capacity → n ≤ config.bufferDefinition.capacity) := by
  unfold validateResolvedFrameLength at h
  split_ifs at h with hzero hcap
  cases h
  exact ⟨rfl, by omega, fun hpos => by omega⟩

theorem declaredFrameLength_append (h : config.declaredFrameLength frame window ≠ .error .needMore)
    (tail : List UInt8) :
    config.declaredFrameLength frame (window ++ tail) = config.declaredFrameLength frame window := by
  unfold declaredFrameLength at h ⊢
  by_cases hprofile : frame.runtimeProfile = true
  · rw [if_pos hprofile, if_pos hprofile]
  · rw [if_neg hprofile] at h
    rw [if_neg hprofile, if_neg hprofile]
    match hsize : frame.size, hlen : frame.len with
    | some size, _ => rfl
    | none, none => rfl
    | none, some len =>
        simp only [hsize, hlen] at h
        exact resolveLengthFieldFrameLength_append h tail

theorem resolveFrameLength_append (h : config.resolveFrameLength frame window ≠ .error .needMore)
    (tail : List UInt8) :
    config.resolveFrameLength frame (window ++ tail) = config.resolveFrameLength frame window := by
  unfold resolveFrameLength at h ⊢
  have hdeclared : config.declaredFrameLength frame window ≠ .error .needMore := by
    intro hc
    rw [hc] at h
    exact h rfl
  rw [declaredFrameLength_append hdeclared tail]

theorem resolveFrameLength_eq_ok {n : Nat} (h : config.resolveFrameLength frame window = .ok n) :
    0 < n ∧ (0 < config.bufferDefinition.capacity → n ≤ config.bufferDefinition.capacity) := by
  unfold resolveFrameLength at h
  cases hdeclared : config.declaredFrameLength frame window with
  | error stop =>
      rw [hdeclared] at h
      cases h
  | ok frameLength =>
      rw [hdeclared] at h
      exact (validateResolvedFrameLength_eq_ok h).2

/-! ### The whole analysis -/

/-- How a window is analysed, once its frame length is known. -/
theorem analyzeFrame_of_length {n : Nat} (hne : window ≠ [])
    (hlen : config.resolveFrameLength frame window = .ok n) (options : StreamParseOptions) :
    config.analyzeFrame frame window options =
      if window.length < n then .error .needMore
      else if n < frame.header.length + streamCrcWidth frame.crc.type then
        .error (frameError frame .invalidLength "帧长度不足以容纳帧头与 CRC" (window.take n))
      else (config.decodeFrame frame (window.take n) options).map (·, n) := by
  unfold analyzeFrame validateFrameBounds
  rw [if_neg hne, hlen]
  simp only [bind, Except.bind]
  by_cases hshort : window.length < n
  · simp only [if_pos hshort]
  · by_cases hsmall : n < frame.header.length + streamCrcWidth frame.crc.type
    · simp only [if_neg hshort, if_pos hsmall]
    · simp only [if_neg hshort, if_neg hsmall]
      cases config.decodeFrame frame (window.take n) options <;> rfl

theorem analyzeFrame_of_stop (hne : window ≠ [])
    (hlen : config.resolveFrameLength frame window = .error stop) (options : StreamParseOptions) :
    config.analyzeFrame frame window options = .error stop := by
  unfold analyzeFrame
  rw [if_neg hne, hlen]
  rfl

/-- **An answer survives every further byte**: only `needMore` can change. -/
theorem analyzeFrame_append (h : config.analyzeFrame frame window options ≠ .error .needMore)
    (tail : List UInt8) :
    config.analyzeFrame frame (window ++ tail) options
      = config.analyzeFrame frame window options := by
  by_cases hne : window = []
  · exact absurd (by rw [hne]; rfl) h
  have hne' : window ++ tail ≠ [] := by simp [hne]
  cases hlen : config.resolveFrameLength frame window with
  | error stop =>
      rw [analyzeFrame_of_stop hne hlen] at h
      have hstop : stop ≠ .needMore := fun hc => h (by rw [hc])
      have hgrown := resolveFrameLength_append (by rw [hlen]; simpa using hstop) tail
      rw [analyzeFrame_of_stop hne hlen, analyzeFrame_of_stop hne' (hgrown.trans hlen)]
  | ok n =>
      have hgrown := resolveFrameLength_append (by rw [hlen]; simp) tail
      rw [analyzeFrame_of_length hne hlen] at h ⊢
      rw [analyzeFrame_of_length hne' (hgrown.trans hlen)]
      by_cases hshort : window.length < n
      · exact absurd (if_pos hshort) h
      · rw [if_neg hshort, if_neg (by rw [List.length_append]; omega),
          List.take_append_of_le_length (by omega)]

/-- The raw bytes of a decoded frame are the bytes it was decoded from. -/
theorem decodeFrame_raw {raw : List UInt8} {parsed : StreamParsedFrame}
    (h : config.decodeFrame frame raw options = .ok parsed) :
    parsed.name = frame.name ∧ parsed.raw = if options.includeFrameRaw then raw else [] := by
  unfold decodeFrame at h
  simp only [bind, Except.bind] at h
  split at h
  · cases h
  · split at h
    · cases h
    · split at h
      · cases h
      · rename_i hmap
        cases h
        unfold applyRuntimeChannelMap at hmap
        split at hmap
        · split at hmap
          · cases hmap
          · cases hmap
            exact ⟨rfl, rfl⟩
        · cases hmap
          exact ⟨rfl, rfl⟩

/-- What a parsed frame takes from the window: `n` bytes, which it carries as its raw bytes. -/
theorem analyzeFrame_eq_ok {parsed : StreamParsedFrame} {n : Nat}
    (h : config.analyzeFrame frame window options = .ok (parsed, n)) :
    0 < n ∧ n ≤ window.length ∧ parsed.name = frame.name ∧
      parsed.raw = if options.includeFrameRaw then window.take n else [] := by
  by_cases hne : window = []
  · rw [hne] at h
    cases h
  cases hlen : config.resolveFrameLength frame window with
  | error stop =>
      rw [analyzeFrame_of_stop hne hlen] at h
      cases h
  | ok m =>
      have hpos := (resolveFrameLength_eq_ok hlen).1
      rw [analyzeFrame_of_length hne hlen] at h
      split_ifs at h with hshort hsmall
      cases hdec : config.decodeFrame frame (window.take m) options with
      | error stop =>
          rw [hdec] at h
          cases h
      | ok decoded =>
          rw [hdec] at h
          cases h
          obtain ⟨hname, hraw⟩ := decodeFrame_raw hdec
          exact ⟨hpos, by omega, hname, hraw⟩

/-! ### The errors of an analysis -/

/-- A reason to stop that belongs to `frame`: it waits, or it is an error naming the frame. -/
def StopOf (frame : StreamFrameDefinition) : AnalyzeStop → Prop
  | .needMore => True
  | .recoverableError error =>
    error.frameName = some frame.name ∧ error.droppedBytes = 0 ∧ error.code ≠ .overflow ∧
      error.code ≠ .noiseDiscarded

theorem stopOf_frameError {code : StreamParseErrorCode} (frame : StreamFrameDefinition)
    (message : String) (raw : List UInt8) (hover : code ≠ .overflow)
    (hnoise : code ≠ .noiseDiscarded) : StopOf frame (frameError frame code message raw) :=
  ⟨rfl, rfl, hover, hnoise⟩

theorem stopOf_declaredFrameLength (h : config.declaredFrameLength frame window = .error stop) :
    StopOf frame stop := by
  unfold declaredFrameLength resolveRuntimeProfileFrameLength resolveLengthFieldFrameLength
    setInvalidLengthError at h
  repeat' split at h
  all_goals first
    | (cases h; exact trivial)
    | (cases h; exact stopOf_frameError _ _ _ (by simp) (by simp))
    | cases h

theorem stopOf_resolveFrameLength (h : config.resolveFrameLength frame window = .error stop) :
    StopOf frame stop := by
  unfold resolveFrameLength at h
  cases hdeclared : config.declaredFrameLength frame window with
  | error stop' =>
      rw [hdeclared] at h
      cases h
      exact stopOf_declaredFrameLength hdeclared
  | ok frameLength =>
      rw [hdeclared] at h
      change config.validateResolvedFrameLength frame frameLength = _ at h
      unfold validateResolvedFrameLength setInvalidLengthError at h
      split_ifs at h
      all_goals
        cases h
        exact stopOf_frameError _ _ _ (by simp) (by simp)

theorem stopOf_decodeFrameFields {raw : List UInt8} {readableLimit : Nat}
    {fields : List StreamFieldDefinition} {cursor : Nat} {parsedFields : StreamFieldMap}
    (h : decodeFrameFields frame raw readableLimit fields cursor parsedFields = .error stop) :
    StopOf frame stop := by
  induction fields generalizing cursor parsedFields with
  | nil => cases h
  | cons field rest ih =>
      unfold decodeFrameFields at h
      split at h
      · rename_i hplan
        unfold resolveFieldDecodePlan setCountResolveError setFieldDecodeError at hplan
        cases h
        simp only at hplan
        repeat' split at hplan
        all_goals cases hplan
        all_goals exact stopOf_frameError _ _ _ (by simp) (by simp)
      · split_ifs at h
        · exact ih h
        · exact ih h
        · cases h
          exact stopOf_frameError _ _ _ (by simp) (by simp)

theorem stopOf_decodeFrame {raw : List UInt8}
    (h : config.decodeFrame frame raw options = .error stop) : StopOf frame stop := by
  unfold decodeFrame at h
  simp only [bind, Except.bind] at h
  split at h
  · rename_i hcrc
    cases h
    unfold validateFrameCrc at hcrc
    simp only at hcrc
    split_ifs at hcrc
    cases hcrc
    exact stopOf_frameError _ _ _ (by simp) (by simp)
  · split at h
    · rename_i hfields
      cases h
      exact stopOf_decodeFrameFields hfields
    · split at h
      · cases h
        exact stopOf_frameError _ _ _ (by simp) (by simp)
      · cases h

/-- **Every error of an analysis names the frame it checked.** -/
theorem stopOf_analyzeFrame (h : config.analyzeFrame frame window options = .error stop) :
    StopOf frame stop := by
  by_cases hne : window = []
  · rw [hne] at h
    cases h
    exact trivial
  cases hlen : config.resolveFrameLength frame window with
  | error stop' =>
      rw [analyzeFrame_of_stop hne hlen] at h
      cases h
      exact stopOf_resolveFrameLength hlen
  | ok n =>
      rw [analyzeFrame_of_length hne hlen] at h
      split_ifs at h with hshort hsmall
      · cases h
        exact trivial
      · cases h
        exact stopOf_frameError _ _ _ (by simp) (by simp)
      · cases hdec : config.decodeFrame frame (window.take n) options with
        | error stop' =>
            rw [hdec] at h
            cases h
            exact stopOf_decodeFrame hdec
        | ok decoded =>
            rw [hdec] at h
            cases h

end ProtoScope.Scripting
