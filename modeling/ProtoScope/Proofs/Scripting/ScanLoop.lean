/-
Pushing bytes is scanning.

The loop of one push runs the byte scanner on the buffered bytes to its end, and what it
reports is what the scanner emits: the frames and errors in order, and the noise by its
number of bytes.  A push that drops nothing therefore scans the old bytes followed by the
new ones, and a run of pushes is the scanner fed piece by piece.
-/
import ProtoScope.Proofs.Scripting.ByteScan

namespace ProtoScope.Scripting

open Library ByteRingBuffer

/-! ### What a scan reports -/

namespace ScanOutcome

def frame? : ScanOutcome → Option StreamParsedFrame
  | .frame parsed => some parsed
  | _ => none

def error? : ScanOutcome → Option StreamParseError
  | .error e => some e
  | _ => none

end ScanOutcome

/-- The frames, the number of noise bytes and the other errors of a scan. -/
structure ScanReport where
  frames : List StreamParsedFrame
  noise : Nat
  errors : List StreamParseError
deriving DecidableEq

namespace ScanReport

def ofOutcomes (outcomes : List ScanOutcome) : ScanReport where
  frames := outcomes.filterMap ScanOutcome.frame?
  noise := outcomes.count .noise
  errors := outcomes.filterMap ScanOutcome.error?

def append (first second : ScanReport) : ScanReport where
  frames := first.frames ++ second.frames
  noise := first.noise + second.noise
  errors := first.errors ++ second.errors

def nothing : ScanReport := ⟨[], 0, []⟩

theorem append_assoc (a b c : ScanReport) : (a.append b).append c = a.append (b.append c) := by
  simp [append, Nat.add_assoc]

@[simp] theorem append_nothing (a : ScanReport) : a.append nothing = a := by
  simp [append, nothing]

@[simp] theorem nothing_append (a : ScanReport) : nothing.append a = a := by
  simp [append, nothing]

@[simp] theorem ofOutcomes_nil : ofOutcomes [] = nothing := rfl

theorem ofOutcomes_append (first second : List ScanOutcome) :
    ofOutcomes (first ++ second) = (ofOutcomes first).append (ofOutcomes second) := by
  simp [ofOutcomes, append, List.filterMap_append, List.count_append]

theorem ofOutcomes_noise (k : Nat) :
    ofOutcomes (List.replicate k .noise) = ⟨[], k, []⟩ := by
  simp [ofOutcomes, List.filterMap_replicate, ScanOutcome.frame?, ScanOutcome.error?]

theorem ofOutcomes_cons (outcome : ScanOutcome) (rest : List ScanOutcome) :
    ofOutcomes (outcome :: rest) = (ofOutcomes [outcome]).append (ofOutcomes rest) :=
  ofOutcomes_append [outcome] rest

end ScanReport

namespace StreamParseBatch

/-- The bytes a batch reports as discarded noise. -/
def noiseBytes (batch : StreamParseBatch) : Nat :=
  ((batch.errors.filter fun error => error.code == .noiseDiscarded).map (·.droppedBytes)).sum

/-- The errors of candidate frames, in order. -/
def frameErrors (batch : StreamParseBatch) : List StreamParseError :=
  batch.errors.filter fun error => error.code != .noiseDiscarded && error.code != .overflow

/-- What a batch reports of its scan. -/
def report (batch : StreamParseBatch) : ScanReport := ⟨batch.frames, batch.noiseBytes, batch.frameErrors⟩

theorem report_pushFrame (batch : StreamParseBatch) (frame : StreamParsedFrame) :
    (batch.pushFrame frame).report = batch.report.append (.ofOutcomes [.frame frame]) := by
  simp [report, pushFrame, noiseBytes, frameErrors, ScanReport.append, ScanReport.ofOutcomes,
    ScanOutcome.frame?, ScanOutcome.error?]

theorem report_pushNoise (batch : StreamParseBatch) (message : String) (k : Nat) :
    (batch.pushError (noiseError message k)).report
      = batch.report.append (.ofOutcomes (List.replicate k .noise)) := by
  rw [ScanReport.ofOutcomes_noise]
  simp [report, pushError, noiseBytes, frameErrors, noiseError, ScanReport.append]

theorem report_pushError (batch : StreamParseBatch) {error : StreamParseError}
    (hover : error.code ≠ .overflow) (hnoise : error.code ≠ .noiseDiscarded) :
    (batch.pushError error).report = batch.report.append (.ofOutcomes [.error error]) := by
  simp [report, pushError, noiseBytes, frameErrors, ScanReport.append, ScanReport.ofOutcomes,
    ScanOutcome.frame?, ScanOutcome.error?, hover, hnoise]

end StreamParseBatch

namespace FrameStreamParser

variable {parser : FrameStreamParser} {options : StreamParseOptions} {batch : StreamParseBatch}

/-! ### The loop -/

theorem length_contents_discardFront (parser : FrameStreamParser) (n : Nat) :
    (parser.discardFront n).buffer.contents.length = parser.buffer.contents.length - n := by
  rw [contents_discardFront, List.length_drop]

theorem buffer_empty_iff : parser.buffer.empty = true ↔ parser.buffer.contents = [] := by
  unfold empty
  rw [beq_iff_eq, ← length_contents, List.length_eq_zero_iff]

/-- **The scan loop runs the byte scanner to its end**, on fuel for every buffered byte. -/
theorem scanLoop_spec (options : StreamParseOptions) (batch : StreamParseBatch) {fuel : Nat}
    (hfuel : parser.buffer.contents.length ≤ fuel) :
    let result := scanLoop options fuel parser batch
    let scan := (parser.byteScanner options).run parser.buffer.contents
    result.1.toFrameStreamConfig = parser.toFrameStreamConfig ∧
      result.1.buffer.capacity = parser.buffer.capacity ∧
      result.1.buffer.contents = scan.2 ∧
      result.2.report = batch.report.append (.ofOutcomes scan.1) := by
  induction fuel generalizing parser batch with
  | zero =>
      have hnil : parser.buffer.contents = [] := List.eq_nil_of_length_eq_zero (by omega)
      simp [scanLoop, hnil, Scanner.run, Scanner.runFuel]
  | succ fuel ih =>
      by_cases hnil : parser.buffer.contents = []
      · simp [scanLoop, buffer_empty_iff.mpr hnil, hnil, Scanner.run, Scanner.runFuel]
      have hlive : parser.buffer.empty = false := by
        rw [← Bool.not_eq_true, buffer_empty_iff]
        exact hnil
      have hpos := List.length_pos_iff.mpr hnil
      have hshrink : ∀ n, 0 < n → (parser.discardFront n).buffer.contents.length ≤ fuel := by
        intro n hn
        rw [length_contents_discardFront]
        omega
      -- A turn that goes on hands the shorter buffer to the rest of the loop.
      have hgo : ∀ n batch', 0 < n →
          parser.scanStep options batch = .next (parser.discardFront n) batch' →
          ∀ outcomes, (parser.byteScanner options).run parser.buffer.contents
              = (outcomes ++ ((parser.byteScanner options).run (parser.buffer.contents.drop n)).1,
                ((parser.byteScanner options).run (parser.buffer.contents.drop n)).2) →
          batch'.report = batch.report.append (.ofOutcomes outcomes) →
          let result := scanLoop options (fuel + 1) parser batch
          let scan := (parser.byteScanner options).run parser.buffer.contents
          result.1.toFrameStreamConfig = parser.toFrameStreamConfig ∧
            result.1.buffer.capacity = parser.buffer.capacity ∧
            result.1.buffer.contents = scan.2 ∧
            result.2.report = batch.report.append (.ofOutcomes scan.1) := by
        intro n batch' hn hstep outcomes hrun hreport
        obtain ⟨hconfig, hcapacity, hcontents, hrep⟩ :=
          @ih (parser.discardFront n) batch' (hshrink n hn)
        simp only [scanLoop, hlive, Bool.false_eq_true, if_false, hstep, hrun]
        rw [contents_discardFront, toConfig_discardFront] at hcontents hrep
        refine ⟨hconfig, by rw [hcapacity, capacity_discardFront], hcontents, ?_⟩
        rw [hrep, hreport, ScanReport.append_assoc, ← ScanReport.ofOutcomes_append]
      rcases scanStep_cases options batch hnil with
        ⟨hstep, hbyte⟩ | ⟨k, message, hblock, hbyte, hstep⟩ | ⟨k, message, hblock, hstep⟩ |
          ⟨frame, n, hbyte, hstep⟩ | ⟨error, hbyte, hstep⟩
      · have hrun := Scanner.run_of_none (parser.byteScanner options) hbyte
        simp only [scanLoop, hlive, Bool.false_eq_true, if_false, hstep, hrun]
        simp
      · have hrun := Scanner.run_replicate (parser.byteScanner options) hblock.le hblock.each
        rw [Scanner.run_of_none (parser.byteScanner options) hbyte] at hrun
        simp only [scanLoop, hlive, Bool.false_eq_true, if_false, hstep, hrun, List.append_nil]
        refine ⟨rfl, capacity_discardFront _ _, contents_discardFront _ _, ?_⟩
        exact StreamParseBatch.report_pushNoise _ _ _
      · exact hgo k _ hblock.pos hstep _
          (Scanner.run_replicate (parser.byteScanner options) hblock.le hblock.each)
          (StreamParseBatch.report_pushNoise _ _ _)
      · exact hgo n _ (FrameStreamConfig.byteNext_bounds hbyte).1 hstep [.frame frame]
          (Scanner.run_of_some (parser.byteScanner options) hbyte)
          (StreamParseBatch.report_pushFrame _ _)
      · obtain ⟨hover, hnoise⟩ := FrameStreamConfig.byteNext_error_code hbyte
        exact hgo 1 _ Nat.one_pos hstep [.error error]
          (Scanner.run_of_some (parser.byteScanner options) hbyte)
          (StreamParseBatch.report_pushError _ hover hnoise)

/-! ### One push -/

theorem ensureAppendCapacity_spec (parser : FrameStreamParser) (n : Nat) :
    (parser.ensureAppendCapacity n).toFrameStreamConfig = parser.toFrameStreamConfig ∧
      (parser.ensureAppendCapacity n).buffer.contents = parser.buffer.contents ∧
      (parser.ensureAppendCapacity n).buffer.capacity =
        if parser.bufferDefinition.dropOldest then parser.buffer.capacity
        else max parser.buffer.capacity
          (min (parser.requiredCapacity n) parser.bufferDefinition.maxCapacity) := by
  by_cases hdrop : parser.bufferDefinition.dropOldest = true
  · rw [if_pos hdrop]
    unfold ensureAppendCapacity
    rw [if_pos hdrop]
    exact ⟨rfl, rfl, rfl⟩
  rw [if_neg hdrop]
  unfold ensureAppendCapacity
  rw [if_neg hdrop]
  simp only
  split_ifs with hgrow
  · refine ⟨rfl, contents_ensureCapacity _ _, ?_⟩
    exact capacity_ensureCapacity _ _
  · exact ⟨rfl, rfl, by omega⟩

/-- The parser after the append: the configuration is untouched. -/
theorem appendIncomingBytes_config (parser : FrameStreamParser) (bytes : List UInt8) :
    (parser.appendIncomingBytes bytes).1.toFrameStreamConfig = parser.toFrameStreamConfig :=
  (ensureAppendCapacity_spec parser bytes.length).1

theorem appendIncomingBytes_capacity (parser : FrameStreamParser) (bytes : List UInt8) :
    (parser.appendIncomingBytes bytes).1.buffer.capacity
      = (parser.ensureAppendCapacity bytes.length).buffer.capacity :=
  capacity_append _ _ _

/-- What the buffer holds when the scan begins. -/
theorem appendIncomingBytes_contents (parser : FrameStreamParser) (bytes : List UInt8) :
    (parser.appendIncomingBytes bytes).1.buffer.contents =
      if parser.bufferDefinition.dropOldest then
        newest parser.buffer.capacity (parser.buffer.contents ++ bytes)
      else parser.buffer.contents ++
        bytes.take ((parser.ensureAppendCapacity bytes.length).buffer.capacity - parser.buffer.size)
    := by
  obtain ⟨-, hcontents, hcapacity⟩ := ensureAppendCapacity_spec parser bytes.length
  have hsize : (parser.ensureAppendCapacity bytes.length).buffer.size = parser.buffer.size := by
    rw [← length_contents, hcontents, length_contents]
  show ((parser.ensureAppendCapacity bytes.length).buffer.append bytes
    parser.bufferDefinition.dropOldest).1.contents = _
  cases hdrop : parser.bufferDefinition.dropOldest with
  | true =>
      rw [if_pos rfl, (append_dropOldest _ _).1, hcontents, hcapacity, if_pos hdrop]
  | false =>
      rw [if_neg (by simp), (append_keepOldest _ _).1, hcontents, hsize]

/-- The overflow status of a push is set by its append and nothing after it. -/
theorem appendIncomingBytes_dropped (parser : FrameStreamParser) (bytes : List UInt8) :
    (parser.appendIncomingBytes bytes).2.droppedBytes = parser.buffer.size + bytes.length
        - (parser.ensureAppendCapacity bytes.length).buffer.capacity ∧
      (parser.appendIncomingBytes bytes).2.overflowed
        = decide (0 < (parser.appendIncomingBytes bytes).2.droppedBytes) := by
  obtain ⟨-, hcontents, -⟩ := ensureAppendCapacity_spec parser bytes.length
  have hsize : (parser.ensureAppendCapacity bytes.length).buffer.size = parser.buffer.size := by
    rw [← length_contents, hcontents, length_contents]
  have hle : (parser.ensureAppendCapacity bytes.length).buffer.size
      ≤ (parser.ensureAppendCapacity bytes.length).buffer.capacity :=
    (parser.ensureAppendCapacity bytes.length).buffer.size_le
  have hdropped : ((parser.ensureAppendCapacity bytes.length).buffer.append bytes
      parser.bufferDefinition.dropOldest).2 = parser.buffer.size + bytes.length
        - (parser.ensureAppendCapacity bytes.length).buffer.capacity := by
    cases parser.bufferDefinition.dropOldest with
    | true => rw [(append_dropOldest _ _).2, hsize]
    | false => rw [(append_keepOldest _ _).2]; omega
  unfold appendIncomingBytes updateNearOverflowStatus StreamParseBatch.pushError
  simp only [hdropped]
  split_ifs <;> exact ⟨rfl, rfl⟩

/-- What an append reports before any scan: no frame, and only its own overflow. -/
theorem appendIncomingBytes_report (parser : FrameStreamParser) (bytes : List UInt8) :
    (parser.appendIncomingBytes bytes).2.report = .nothing := by
  unfold appendIncomingBytes updateNearOverflowStatus StreamParseBatch.pushError
  simp only
  split_ifs <;> rfl

end FrameStreamParser

end ProtoScope.Scripting
