/-
No byte is lost or counted twice.

The events of a push, in order, cut what the buffer held when the scan began into segments:
a frame's raw bytes, a block of noise, a single byte for a broken candidate, nothing for
the overflow notice.  What the events do not cover is what is still buffered.  One lemma
says that a turn of the loop keeps this, the rest is induction.

Whether frames carry their raw bytes is an option of the push; it changes nothing else, so
the accounting is stated with the option on and transferred.
-/
import ProtoScope.Proofs.Scripting.SplitHeaders

namespace ProtoScope.Scripting

open FrameStreamConfig StreamParseBatch

namespace StreamParseEvent

def frameIndex? : StreamParseEvent → Option Nat
  | .frame index => some index
  | .error _ => none

def errorIndex? : StreamParseEvent → Option Nat
  | .frame _ => none
  | .error index => some index

end StreamParseEvent

/-- The frame as an analysis with these options would return it. -/
def StreamParsedFrame.showRaw (options : StreamParseOptions) (frame : StreamParsedFrame) :
    StreamParsedFrame :=
  { frame with raw := if options.includeFrameRaw then frame.raw else [] }

/-- How many bytes of the window an error stands for. -/
def StreamParseError.weight (error : StreamParseError) : Nat :=
  match error.code with
  | .overflow => 0
  | .noiseDiscarded => error.droppedBytes
  | _ => 1

namespace StreamParseBatch

/-- The bytes an event of the batch accounts for. -/
def AccountsFor (batch : StreamParseBatch) : StreamParseEvent → List UInt8 → Prop
  | .frame index, segment => ∃ frame, batch.frames[index]? = some frame ∧ frame.raw = segment
  | .error index, segment => ∃ error, batch.errors[index]? = some error ∧
      error.weight = segment.length

/-- The events of the batch cut `bytes` into their segments, with `residual` left over, and
name every frame and every error once, in order. -/
structure Accounted (batch : StreamParseBatch) (bytes residual : List UInt8) : Prop where
  segments : ∃ segments, List.Forall₂ batch.AccountsFor batch.events segments ∧
    segments.flatten ++ residual = bytes
  frameIndexes : batch.events.filterMap StreamParseEvent.frameIndex? = List.range batch.frames.length
  errorIndexes : batch.events.filterMap StreamParseEvent.errorIndex? = List.range batch.errors.length

variable {batch : StreamParseBatch} {bytes residual : List UInt8}

theorem AccountsFor.pushFrame {event : StreamParseEvent} {segment : List UInt8}
    (h : batch.AccountsFor event segment) (frame : StreamParsedFrame) :
    (batch.pushFrame frame).AccountsFor event segment := by
  cases event with
  | error index => exact h
  | frame index =>
      obtain ⟨known, hget, hraw⟩ := h
      have hlt := (List.getElem?_eq_some_iff.mp hget).1
      exact ⟨known, (List.getElem?_append_left hlt).trans hget, hraw⟩

theorem AccountsFor.pushError {event : StreamParseEvent} {segment : List UInt8}
    (h : batch.AccountsFor event segment) (error : StreamParseError) :
    (batch.pushError error).AccountsFor event segment := by
  cases event with
  | frame index => exact h
  | error index =>
      obtain ⟨known, hget, hweight⟩ := h
      have hlt := (List.getElem?_eq_some_iff.mp hget).1
      exact ⟨known, (List.getElem?_append_left hlt).trans hget, hweight⟩

/-- A new frame takes its raw bytes from the front of what is left. -/
theorem Accounted.pushFrame (h : batch.Accounted bytes residual) {frame : StreamParsedFrame}
    {n : Nat} (hraw : frame.raw = residual.take n) :
    (batch.pushFrame frame).Accounted bytes (residual.drop n) := by
  obtain ⟨⟨segments, hall, hcut⟩, hframes, herrors⟩ := h
  refine ⟨⟨segments ++ [residual.take n], ?_, ?_⟩, ?_, ?_⟩
  · refine List.rel_append (hall.imp fun _ _ h => h.pushFrame frame) (.cons ?_ .nil)
    exact ⟨frame, List.getElem?_concat_length, hraw⟩
  · rw [List.flatten_append, List.flatten_singleton, List.append_assoc, List.take_append_drop, hcut]
  · simp [StreamParseBatch.pushFrame, StreamParseEvent.frameIndex?, hframes, List.range_succ]
  · simp [StreamParseBatch.pushFrame, StreamParseEvent.errorIndex?, herrors]

/-- A new error takes as many bytes as it stands for. -/
theorem Accounted.pushError (h : batch.Accounted bytes residual) {error : StreamParseError}
    {n : Nat} (hweight : error.weight = n) (hn : n ≤ residual.length) :
    (batch.pushError error).Accounted bytes (residual.drop n) := by
  obtain ⟨⟨segments, hall, hcut⟩, hframes, herrors⟩ := h
  refine ⟨⟨segments ++ [residual.take n], ?_, ?_⟩, ?_, ?_⟩
  · refine List.rel_append (hall.imp fun _ _ h => h.pushError error) (.cons ?_ .nil)
    refine ⟨error, List.getElem?_concat_length, ?_⟩
    rw [List.length_take]
    omega
  · rw [List.flatten_append, List.flatten_singleton, List.append_assoc, List.take_append_drop, hcut]
  · simp [StreamParseBatch.pushError, StreamParseEvent.frameIndex?, hframes]
  · simp [StreamParseBatch.pushError, StreamParseEvent.errorIndex?, herrors, List.range_succ]

/-- Only the lists of a batch matter to the accounting. -/
theorem Accounted.congr {batch' : StreamParseBatch} (h : batch.Accounted bytes residual)
    (hframes : batch'.frames = batch.frames) (herrors : batch'.errors = batch.errors)
    (hevents : batch'.events = batch.events) : batch'.Accounted bytes residual := by
  obtain ⟨⟨segments, hall, hcut⟩, hf, he⟩ := h
  refine ⟨⟨segments, ?_, hcut⟩, by rw [hevents, hframes, hf], by rw [hevents, herrors, he]⟩
  rw [hevents]
  refine hall.imp fun event segment h => ?_
  cases event with
  | frame index => simpa only [AccountsFor, hframes] using h
  | error index => simpa only [AccountsFor, herrors] using h

/-- The batch as a push with these options would return it. -/
def showRaw (options : StreamParseOptions) (batch : StreamParseBatch) : StreamParseBatch :=
  { batch with frames := batch.frames.map (StreamParsedFrame.showRaw options) }

end StreamParseBatch

/-! ### The raw option -/

namespace FrameStreamConfig

variable {config : FrameStreamConfig}

theorem decodeFrame_showRaw (config : FrameStreamConfig) (frame : StreamFrameDefinition)
    (raw : List UInt8) (options : StreamParseOptions) :
    config.decodeFrame frame raw options
      = (config.decodeFrame frame raw {}).map (StreamParsedFrame.showRaw options) := by
  unfold decodeFrame
  simp only [bind, Except.bind]
  cases validateFrameCrc frame raw with
  | error stop => rfl
  | ok _ =>
      simp only
      cases decodeFrameFields frame raw (raw.length - streamCrcWidth frame.crc.type) frame.fields 0
          ∅ with
      | error stop => rfl
      | ok parsedFields =>
          unfold applyRuntimeChannelMap
          by_cases hprofile : frame.runtimeProfile = true
          · simp only [hprofile, if_true]
            cases config.runtimeProfiles.lookup frame.name <;> rfl
          · simp only [if_neg hprofile]
            rfl

theorem analyzeFrame_showRaw (config : FrameStreamConfig) (frame : StreamFrameDefinition)
    (window : List UInt8) (options : StreamParseOptions) :
    config.analyzeFrame frame window options
      = (config.analyzeFrame frame window {}).map fun r => (r.1.showRaw options, r.2) := by
  by_cases hne : window = []
  · rw [hne]
    rfl
  cases hlen : config.resolveFrameLength frame window with
  | error stop =>
      rw [analyzeFrame_of_stop hne hlen, analyzeFrame_of_stop hne hlen]
      rfl
  | ok n =>
      rw [analyzeFrame_of_length hne hlen, analyzeFrame_of_length hne hlen, decodeFrame_showRaw]
      split_ifs
      · rfl
      · rfl
      · cases config.decodeFrame frame (window.take n) {} <;> rfl

theorem analyzeCandidates_showRaw (config : FrameStreamConfig) (window : List UInt8)
    (options : StreamParseOptions) (candidates : List StreamFrameDefinition) (needMore : Bool)
    (firstError : Option StreamParseError) :
    config.analyzeCandidates window options candidates needMore firstError =
      match config.analyzeCandidates window {} candidates needMore firstError with
      | .parsed frame n => .parsed (frame.showRaw options) n
      | .needMore => .needMore
      | .recoverableError error => .recoverableError error := by
  induction candidates generalizing needMore firstError with
  | nil =>
      unfold analyzeCandidates
      cases needMore <;> rfl
  | cons frame rest ih =>
      unfold analyzeCandidates
      rw [analyzeFrame_showRaw config frame window options]
      cases config.analyzeFrame frame window {} with
      | ok r => rfl
      | error stop =>
          cases stop with
          | needMore => exact ih _ _
          | recoverableError e => exact ih _ _

end FrameStreamConfig

namespace FrameStreamParser

variable {parser : FrameStreamParser} {options : StreamParseOptions} {batch : StreamParseBatch}

theorem scanStep_showRaw (parser : FrameStreamParser) (options : StreamParseOptions)
    (batch : StreamParseBatch) :
    parser.scanStep options (batch.showRaw options) =
      match parser.scanStep {} batch with
      | .stop parser batch => .stop parser (batch.showRaw options)
      | .next parser batch => .next parser (batch.showRaw options) := by
  unfold scanStep
  simp only
  cases parser.findCandidate parser.ensureLinearWindow with
  | none =>
      simp only [discardUnmatchedPrefix]
      split_ifs <;> rfl
  | some candidate =>
      simp only
      by_cases hstart : candidate.start = 0
      · rw [if_neg (by simpa using hstart), if_neg (by simpa using hstart)]
        unfold analyzeCandidateFrames
        rw [analyzeCandidates_showRaw]
        cases parser.analyzeCandidates parser.ensureLinearWindow {} candidate.candidates false
            none with
        | needMore => rfl
        | parsed frame n =>
            simp [showRaw, pushFrame]
        | recoverableError error => cases error <;> rfl
      · rw [if_pos hstart, if_pos hstart]
        rfl

theorem scanLoop_showRaw (options : StreamParseOptions) (fuel : Nat) (parser : FrameStreamParser)
    (batch : StreamParseBatch) :
    scanLoop options fuel parser (batch.showRaw options)
      = ((scanLoop {} fuel parser batch).1, (scanLoop {} fuel parser batch).2.showRaw options) := by
  induction fuel generalizing parser batch with
  | zero => rfl
  | succ fuel ih =>
      unfold scanLoop
      by_cases hlive : parser.buffer.empty = true
      · rw [if_pos hlive, if_pos hlive]
      · rw [if_neg hlive, if_neg hlive, scanStep_showRaw]
        cases parser.scanStep {} batch with
        | stop parser' batch' => rfl
        | next parser' batch' => exact ih parser' batch'

theorem appendIncomingBytes_frames (parser : FrameStreamParser) (bytes : List UInt8) :
    (parser.appendIncomingBytes bytes).2.frames = [] :=
  congrArg ScanReport.frames (appendIncomingBytes_report parser bytes)

/-- **The raw option changes the frames' raw bytes and nothing else.** -/
theorem pushBytes_showRaw (parser : FrameStreamParser) (bytes : List UInt8)
    (options : StreamParseOptions) :
    parser.pushBytes bytes options
      = ((parser.pushBytes bytes {}).1, (parser.pushBytes bytes {}).2.showRaw options) := by
  unfold pushBytes
  by_cases hbytes : bytes = []
  · rw [if_pos hbytes, if_pos hbytes]
    rfl
  have hframes := appendIncomingBytes_frames parser bytes
  have hshow : (parser.appendIncomingBytes bytes).2.showRaw options
      = (parser.appendIncomingBytes bytes).2 := by
    unfold showRaw
    rw [hframes]
    simp only [List.map_nil]
    rw [← hframes]
  have hloop := scanLoop_showRaw options (parser.appendIncomingBytes bytes).1.buffer.size
    (parser.appendIncomingBytes bytes).1 (parser.appendIncomingBytes bytes).2
  rw [hshow] at hloop
  rw [if_neg hbytes, if_neg hbytes]
  simp only
  split_ifs
  · rw [hshow]
  · rw [hloop]
    rfl

/-! ### The loop of the source -/

/-- The unbounded loop: it ends on an empty buffer, on a `break`, or after another turn. -/
inductive ScanRuns (options : StreamParseOptions) :
    FrameStreamParser → StreamParseBatch → FrameStreamParser → StreamParseBatch → Prop where
  | empty {parser : FrameStreamParser} {batch : StreamParseBatch} :
      parser.buffer.contents = [] → ScanRuns options parser batch parser batch
  | stop {parser last : FrameStreamParser} {batch lastBatch : StreamParseBatch} :
      parser.buffer.contents ≠ [] → parser.scanStep options batch = .stop last lastBatch →
      ScanRuns options parser batch last lastBatch
  | next {parser parser' last : FrameStreamParser} {batch batch' lastBatch : StreamParseBatch} :
      parser.buffer.contents ≠ [] → parser.scanStep options batch = .next parser' batch' →
      ScanRuns options parser' batch' last lastBatch → ScanRuns options parser batch last lastBatch

/-- **Every turn that does not end the loop removes a byte.** -/
theorem scanStep_next_shrinks {parser' : FrameStreamParser} {batch' : StreamParseBatch}
    (hne : parser.buffer.contents ≠ []) (h : parser.scanStep options batch = .next parser' batch') :
    parser'.buffer.contents.length < parser.buffer.contents.length := by
  have hpos := List.length_pos_iff.mpr hne
  rcases scanStep_cases options batch hne with
    ⟨heq, -⟩ | ⟨k, message, -, -, heq⟩ | ⟨k, message, hblock, heq⟩ | ⟨frame, n, hbyte, heq⟩ |
      ⟨error, -, heq⟩ <;>
    rw [heq] at h <;> cases h <;> rw [length_contents_discardFront]
  · have := hblock.pos
    omega
  · have := (byteNext_bounds hbyte).1
    omega
  · omega

/-- The loop ends, and the fuel of one turn for every byte does not cut it short. -/
theorem scanLoop_runs {fuel : Nat} (hfuel : parser.buffer.contents.length ≤ fuel) :
    ScanRuns options parser batch (scanLoop options fuel parser batch).1
      (scanLoop options fuel parser batch).2 := by
  induction fuel generalizing parser batch with
  | zero => exact .empty (List.eq_nil_of_length_eq_zero (by omega))
  | succ fuel ih =>
      by_cases hnil : parser.buffer.contents = []
      · rw [scanLoop, if_pos (buffer_empty_iff.mpr hnil)]
        exact .empty hnil
      · rw [scanLoop, if_neg (by rw [buffer_empty_iff]; exact hnil)]
        cases hstep : parser.scanStep options batch with
        | stop last lastBatch => exact .stop hnil hstep
        | next parser' batch' =>
            have := scanStep_next_shrinks hnil hstep
            exact .next hnil hstep (ih (by omega))

/-! ### The accounting -/

/-- **One turn keeps the account.** -/
theorem scanStep_accounted {bytes : List UInt8} (hne : parser.buffer.contents ≠ [])
    (h : batch.Accounted bytes parser.buffer.contents) :
    match parser.scanStep {} batch with
    | .stop last lastBatch => lastBatch.Accounted bytes last.buffer.contents
    | .next last lastBatch => lastBatch.Accounted bytes last.buffer.contents := by
  have hpos := List.length_pos_iff.mpr hne
  rcases scanStep_cases {} batch hne with
    ⟨heq, -⟩ | ⟨k, message, hblock, -, heq⟩ | ⟨k, message, hblock, heq⟩ | ⟨frame, n, hbyte, heq⟩ |
      ⟨error, hbyte, heq⟩ <;> rw [heq] <;> simp only
  · exact h
  · rw [contents_discardFront]
    exact h.pushError rfl hblock.le
  · rw [contents_discardFront]
    exact h.pushError rfl hblock.le
  · rw [contents_discardFront]
    exact h.pushFrame (byteNext_frame_raw hbyte).2.2
  · rw [contents_discardFront]
    refine h.pushError ?_ hpos
    obtain ⟨hover, hnoise⟩ := byteNext_error_code hbyte
    unfold StreamParseError.weight
    cases hcode : error.code <;> simp_all

theorem scanLoop_accounted {bytes : List UInt8} {fuel : Nat}
    (h : batch.Accounted bytes parser.buffer.contents) :
    (scanLoop {} fuel parser batch).2.Accounted bytes
      (scanLoop {} fuel parser batch).1.buffer.contents := by
  induction fuel generalizing parser batch with
  | zero => exact h
  | succ fuel ih =>
      by_cases hnil : parser.buffer.contents = []
      · rw [scanLoop, if_pos (buffer_empty_iff.mpr hnil)]
        exact h
      · rw [scanLoop, if_neg (by rw [buffer_empty_iff]; exact hnil)]
        have hstep := scanStep_accounted hnil h
        cases hturn : parser.scanStep {} batch with
        | stop last lastBatch =>
            rw [hturn] at hstep
            exact hstep
        | next last lastBatch =>
            rw [hturn] at hstep
            exact ih hstep

/-- The overflow notice accounts for nothing. -/
theorem appendIncomingBytes_accounted (parser : FrameStreamParser) (bytes : List UInt8) :
    (parser.appendIncomingBytes bytes).2.Accounted
      (parser.appendIncomingBytes bytes).1.buffer.contents
      (parser.appendIncomingBytes bytes).1.buffer.contents := by
  generalize (parser.appendIncomingBytes bytes).1.buffer.contents = contents
  have hempty : StreamParseBatch.Accounted {} contents contents :=
    ⟨⟨[], .nil, rfl⟩, rfl, rfl⟩
  unfold appendIncomingBytes updateNearOverflowStatus
  simp only
  split_ifs
  · exact (hempty.pushError (n := 0) rfl (Nat.zero_le _)).congr rfl rfl rfl
  · exact (hempty.pushError (n := 0) rfl (Nat.zero_le _)).congr rfl rfl rfl
  · exact hempty.congr rfl rfl rfl
  · exact hempty.congr rfl rfl rfl

/-- **Byte conservation.**  The events of a push cut the bytes the buffer held after the append
into the frames' raw bytes, the noise and one byte for each other error, and the rest is
still buffered; every turn of the loop but its last removes a byte, so it ends. -/
theorem pushBytes_accounted (parser : FrameStreamParser) (bytes : List UInt8)
    (options : StreamParseOptions) :
    let appended := parser.appendIncomingBytes bytes
    let full := parser.pushBytes bytes {}
    -- What the scan starts from: the old bytes, the accepted new ones, minus an overflow's drop.
    (appended.1.buffer.contents =
        if parser.bufferDefinition.dropOldest then
          ByteRingBuffer.newest parser.buffer.capacity (parser.buffer.contents ++ bytes)
        else parser.buffer.contents ++ bytes.take
          ((parser.ensureAppendCapacity bytes.length).buffer.capacity - parser.buffer.size)) ∧
      full.2.Accounted appended.1.buffer.contents full.1.buffer.contents ∧
      parser.pushBytes bytes options = (full.1, full.2.showRaw options) ∧
      (∀ turn batch turn' batch', ScanTurn options appended.1 appended.2 turn batch →
        turn.scanStep options batch = .next turn' batch' →
        turn'.buffer.contents.length < turn.buffer.contents.length) ∧
      (bytes ≠ [] → parser.frames ≠ [] → ∃ batch,
        ScanRuns options appended.1 appended.2 (parser.pushBytes bytes options).1 batch ∧
        (parser.pushBytes bytes options).2
          = { batch with bufferSize := (parser.pushBytes bytes options).1.buffer.size }) := by
  refine ⟨appendIncomingBytes_contents parser bytes, ?_, pushBytes_showRaw parser bytes options,
    fun turn batch turn' batch' hturn hstep => scanStep_next_shrinks hturn.spec.2.2 hstep, ?_⟩
  · by_cases hbytes : bytes = []
    · have hsame : (parser.appendIncomingBytes bytes).1.buffer.contents
          = parser.buffer.contents := by
        have hsize : parser.buffer.size ≤ parser.buffer.capacity := parser.buffer.size_le
        rw [appendIncomingBytes_contents, hbytes]
        simp only [List.append_nil, List.take_nil, ite_eq_right_iff]
        intro _
        unfold ByteRingBuffer.newest
        rw [ByteRingBuffer.length_contents, show parser.buffer.size - parser.buffer.capacity = 0 by
          omega, List.drop_zero]
      rw [hsame]
      unfold pushBytes
      rw [if_pos hbytes]
      exact ⟨⟨[], .nil, rfl⟩, rfl, rfl⟩
    · have happend := appendIncomingBytes_accounted parser bytes
      unfold pushBytes
      rw [if_neg hbytes]
      simp only
      split_ifs
      · exact happend
      · exact (scanLoop_accounted happend).congr rfl rfl rfl
  · intro hbytes hframes
    have hframes' : (parser.appendIncomingBytes bytes).1.frames ≠ [] := by
      rw [appendIncomingBytes_config]
      exact hframes
    unfold pushBytes
    rw [if_neg hbytes]
    simp only [if_neg hframes']
    exact ⟨_, scanLoop_runs (by simp), rfl⟩

end FrameStreamParser

end ProtoScope.Scripting
