/-
The scan loop as a byte-at-a-time scanner.

The loop discards noise in blocks whose size depends on what happens to be buffered.  Seen
one byte at a time it is an incremental scanner: at the start of its window it skips one
byte of noise, takes a frame, skips one byte for an error, or waits.  `scanStep_cases`
says what one turn of the source's loop does in these terms, and `scanLoop_spec` that the
whole loop is a run of the scanner.
-/
import ProtoScope.Library.IncrementalScan
import ProtoScope.Proofs.Scripting.ByteRingBuffer
import ProtoScope.Proofs.Scripting.Candidates

namespace ProtoScope.Scripting

open Library FrameStreamConfig

/-- What the scan makes of the bytes at the start of its window. -/
inductive ScanOutcome where
  | noise
  | frame (frame : StreamParsedFrame)
  | error (error : StreamParseError)
deriving DecidableEq

namespace FrameStreamConfig

/-- The scan at the start of a window; `none` waits for more bytes. -/
def byteNext (config : FrameStreamConfig) (options : StreamParseOptions) (w : List UInt8) :
    Option (ScanOutcome × Nat) :=
  if w = [] then none
  else
    match config.matchedCandidates w 0 with
    | [] =>
      if (config.findCandidate w).isSome ∨ config.maxHeaderLength ≤ w.length then some (.noise, 1)
      else none
    | candidates =>
      match config.analyzeCandidates w options candidates false none with
      | .parsed frame frameLength => some (.frame frame, frameLength)
      | .needMore => none
      | .recoverableError error => error.map (.error ·, 1)

variable {config : FrameStreamConfig} {options : StreamParseOptions} {w : List UInt8}

theorem ne_nil_of_matchedCandidates {i : Nat} (h : config.matchedCandidates w i ≠ []) : w ≠ [] := by
  rintro rfl
  exact h (by simp [matchedCandidates])

theorem byteNext_of_no_candidate (hne : w ≠ []) (h : config.matchedCandidates w 0 = []) :
    config.byteNext options w =
      if (config.findCandidate w).isSome ∨ config.maxHeaderLength ≤ w.length then some (.noise, 1)
      else none := by
  unfold byteNext
  rw [if_neg hne]
  simp only [h]

theorem byteNext_of_candidates (options : StreamParseOptions)
    (h : config.matchedCandidates w 0 ≠ []) :
    config.byteNext options w =
      match config.analyzeCandidates w options (config.matchedCandidates w 0) false none with
      | .parsed frame frameLength => some (.frame frame, frameLength)
      | .needMore => none
      | .recoverableError error => error.map (.error ·, 1) := by
  unfold byteNext
  rw [if_neg (ne_nil_of_matchedCandidates h)]
  cases hm : config.matchedCandidates w 0 with
  | nil => exact absurd hm h
  | cons frame rest => rfl

theorem byteNext_eq_noise {n : Nat} (h : config.byteNext options w = some (.noise, n)) :
    n = 1 ∧ w ≠ [] ∧ config.matchedCandidates w 0 = [] ∧
      ((config.findCandidate w).isSome ∨ config.maxHeaderLength ≤ w.length) := by
  by_cases hm : config.matchedCandidates w 0 = []
  · have hne : w ≠ [] := by
      rintro rfl
      cases h
    rw [byteNext_of_no_candidate hne hm] at h
    split_ifs at h with hcond
    cases h
    exact ⟨rfl, hne, hm, hcond⟩
  · rw [byteNext_of_candidates options hm] at h
    split at h
    · cases h
    · cases h
    · rename_i error _
      cases error <;> cases h

/-- A frame is taken from the first candidate that parses. -/
theorem byteNext_eq_frame {parsed : StreamParsedFrame} {n : Nat} :
    config.byteNext options w = some (.frame parsed, n)
      ↔ config.analyzeCandidates w options (config.matchedCandidates w 0) false none
          = .parsed parsed n := by
  by_cases hm : config.matchedCandidates w 0 = []
  · constructor
    · intro h
      have hne : w ≠ [] := by
        rintro rfl
        cases h
      rw [byteNext_of_no_candidate hne hm] at h
      split_ifs at h
      cases h
    · intro h
      rw [hm] at h
      cases h
  · rw [byteNext_of_candidates options hm]
    constructor
    · intro h
      split at h
      · rename_i heq
        cases h
        exact heq
      · cases h
      · rename_i error _
        cases error <;> cases h
    · intro h
      simp only [h]

theorem byteNext_eq_error {error : StreamParseError} {n : Nat} :
    config.byteNext options w = some (.error error, n)
      ↔ n = 1 ∧ config.matchedCandidates w 0 ≠ [] ∧
        config.analyzeCandidates w options (config.matchedCandidates w 0) false none
          = .recoverableError (some error) := by
  by_cases hm : config.matchedCandidates w 0 = []
  · constructor
    · intro h
      have hne : w ≠ [] := by
        rintro rfl
        cases h
      rw [byteNext_of_no_candidate hne hm] at h
      split_ifs at h
      cases h
    · exact fun h => absurd hm h.2.1
  · rw [byteNext_of_candidates options hm]
    constructor
    · intro h
      split at h
      · cases h
      · cases h
      · rename_i error' heq
        cases error' with
        | none => cases h
        | some error' =>
            cases h
            exact ⟨rfl, hm, heq⟩
    · rintro ⟨rfl, -, h⟩
      simp only [h, Option.map_some]

/-- What a frame takes: its length, and as raw bytes that many from the window's start. -/
theorem byteNext_frame_raw {parsed : StreamParsedFrame} {n : Nat}
    (h : config.byteNext options w = some (.frame parsed, n)) :
    0 < n ∧ n ≤ w.length ∧ parsed.raw = if options.includeFrameRaw then w.take n else [] := by
  obtain ⟨before, frame, after, -, hok, -⟩ := analyzeCandidates_eq_parsed.mp (byteNext_eq_frame.mp h)
  obtain ⟨hpos, hle, -, hraw⟩ := analyzeFrame_eq_ok hok
  exact ⟨hpos, hle, hraw⟩

/-- An error of the scan is one of the analysis, so it is neither overflow nor noise. -/
theorem byteNext_error_code {error : StreamParseError} {n : Nat}
    (h : config.byteNext options w = some (.error error, n)) :
    error.code ≠ .overflow ∧ error.code ≠ .noiseDiscarded := by
  obtain ⟨-, -, hm⟩ := byteNext_eq_error.mp h
  obtain ⟨-, -, hfrom, -⟩ := analyzeCandidates_eq_error hm
  rcases hfrom with hc | ⟨-, frame, -, e, he, hstop⟩
  · cases hc
  · cases he
    have := stopOf_analyzeFrame hstop
    exact ⟨this.2.2.1, this.2.2.2⟩

theorem byteNext_bounds {e : ScanOutcome} {n : Nat} (h : config.byteNext options w = some (e, n)) :
    0 < n ∧ n ≤ w.length := by
  have hne : w ≠ [] := by
    rintro rfl
    cases h
  have hpos := List.length_pos_iff.mpr hne
  cases e with
  | noise =>
      obtain ⟨rfl, -⟩ := byteNext_eq_noise h
      exact ⟨Nat.one_pos, hpos⟩
  | frame parsed =>
      obtain ⟨hn, hle, -⟩ := byteNext_frame_raw h
      exact ⟨hn, hle⟩
  | error error =>
      obtain ⟨rfl, -⟩ := byteNext_eq_error.mp h
      exact ⟨Nat.one_pos, hpos⟩

/-- The parser's scan as an incremental scanner. -/
def byteScanner (config : FrameStreamConfig) (options : StreamParseOptions) :
    Scanner UInt8 ScanOutcome where
  next := config.byteNext options
  next_bounds := byteNext_bounds

/-- Every byte before the first candidate is noise, one at a time. -/
theorem byteNext_before_candidate {candidate : CandidateMatch}
    (h : config.findCandidate w = some candidate) {i : Nat} (hi : i < candidate.start) :
    config.byteNext options (w.drop i) = some (.noise, 1) := by
  obtain ⟨hlt, hne, hat, hbefore⟩ := findCandidate_eq_some h
  have hempty : config.matchedCandidates (w.drop i) 0 = [] := by
    rw [matchedCandidates_drop]
    exact hbefore i hi
  have hlen : i < w.length := by omega
  rw [byteNext_of_no_candidate (by simpa using hlen) hempty, if_pos]
  left
  by_contra hnone
  rw [Bool.not_eq_true, Option.isSome_eq_false_iff, Option.isNone_iff_eq_none,
    findCandidate_eq_none] at hnone
  have := hnone (candidate.start - i) (by rw [List.length_drop]; omega)
  rw [matchedCandidates_drop, Nat.add_sub_cancel' (by omega), hat] at this
  exact hne this

/-- Without a candidate, all but the last `maxHeaderLength - 1` bytes are noise. -/
theorem byteNext_without_candidate (h : config.findCandidate w = none) {i : Nat}
    (hi : i < w.length) :
    config.byteNext options (w.drop i) =
      if config.maxHeaderLength ≤ w.length - i then some (.noise, 1) else none := by
  have hall := findCandidate_eq_none.mp h
  have hempty : ∀ j < (w.drop i).length, config.matchedCandidates (w.drop i) j = [] := by
    intro j hj
    rw [matchedCandidates_drop]
    rw [List.length_drop] at hj
    exact hall _ (by omega)
  rw [byteNext_of_no_candidate (by simpa using hi) (hempty 0 (by rw [List.length_drop]; omega)),
    findCandidate_eq_none.mpr hempty, List.length_drop]
  simp

end FrameStreamConfig

namespace FrameStreamParser

variable {parser : FrameStreamParser} {options : StreamParseOptions} {batch : StreamParseBatch}

@[simp] theorem ensureLinearWindow_eq (parser : FrameStreamParser) :
    parser.ensureLinearWindow = parser.buffer.contents :=
  ByteRingBuffer.linearRead_all _

@[simp] theorem contents_discardFront (parser : FrameStreamParser) (n : Nat) :
    (parser.discardFront n).buffer.contents = parser.buffer.contents.drop n :=
  ByteRingBuffer.contents_discardFront _ _

@[simp] theorem toConfig_discardFront (parser : FrameStreamParser) (n : Nat) :
    (parser.discardFront n).toFrameStreamConfig = parser.toFrameStreamConfig := rfl

@[simp] theorem capacity_discardFront (parser : FrameStreamParser) (n : Nat) :
    (parser.discardFront n).buffer.capacity = parser.buffer.capacity :=
  ByteRingBuffer.capacity_discardFront _ _

/-- A block of noise: `k` bytes go, and each of them was noise by itself. -/
structure NoiseBlock (parser : FrameStreamParser) (options : StreamParseOptions) (k : Nat) :
    Prop where
  pos : 0 < k
  le : k ≤ parser.buffer.contents.length
  each : ∀ i < k, parser.byteNext options (parser.buffer.contents.drop i) = some (.noise, 1)

/-- **What one turn of the scan loop can do.** -/
theorem scanStep_cases (options : StreamParseOptions) (batch : StreamParseBatch)
    (hne : parser.buffer.contents ≠ []) :
    (parser.scanStep options batch = .stop parser batch ∧
        parser.byteNext options parser.buffer.contents = none) ∨
      (∃ k message, parser.NoiseBlock options k ∧
        parser.byteNext options (parser.buffer.contents.drop k) = none ∧
        parser.scanStep options batch
          = .stop (parser.discardFront k) (batch.pushError (noiseError message k))) ∨
      (∃ k message, parser.NoiseBlock options k ∧
        parser.scanStep options batch
          = .next (parser.discardFront k) (batch.pushError (noiseError message k))) ∨
      (∃ frame n, parser.byteNext options parser.buffer.contents = some (.frame frame, n) ∧
        parser.scanStep options batch = .next (parser.discardFront n) (batch.pushFrame frame)) ∨
      (∃ error, parser.byteNext options parser.buffer.contents = some (.error error, 1) ∧
        parser.scanStep options batch = .next (parser.discardFront 1) (batch.pushError error)) := by
  have hpos : 0 < parser.buffer.contents.length := List.length_pos_iff.mpr hne
  have hsize : parser.buffer.size = parser.buffer.contents.length :=
    (ByteRingBuffer.length_contents _).symm
  unfold scanStep
  simp only [ensureLinearWindow_eq]
  cases hfind : parser.findCandidate parser.buffer.contents with
  | none =>
      have hkeep : (if 0 < parser.maxHeaderLength then parser.maxHeaderLength - 1 else 0)
          = parser.maxHeaderLength - 1 := by
        split <;> omega
      unfold discardUnmatchedPrefix
      simp only [hkeep, hsize]
      have heach : ∀ i < parser.buffer.contents.length,
          parser.byteNext options (parser.buffer.contents.drop i) =
            if parser.maxHeaderLength ≤ parser.buffer.contents.length - i then some (.noise, 1)
            else none :=
        fun i hi => byteNext_without_candidate hfind hi
      by_cases hshort : parser.buffer.contents.length ≤ parser.maxHeaderLength - 1
      · refine Or.inl ⟨by rw [if_pos hshort], ?_⟩
        have := heach 0 hpos
        rwa [List.drop_zero, if_neg (by omega)] at this
      · refine Or.inr (Or.inl ⟨parser.buffer.contents.length - (parser.maxHeaderLength - 1), _,
          ⟨by omega, by omega, fun i hi => ?_⟩, ?_, by rw [if_neg hshort]⟩)
        · rw [heach i (by omega), if_pos (by omega)]
        · by_cases hzero : parser.maxHeaderLength - 1 = 0
          · rw [hzero, Nat.sub_zero, List.drop_length]
            rfl
          · rw [heach _ (by omega), if_neg (by omega)]
  | some candidate =>
      obtain ⟨hlt, hcand, hat, hbefore⟩ := findCandidate_eq_some hfind
      simp only
      by_cases hstart : candidate.start = 0
      · rw [if_neg (by simpa using hstart)]
        rw [hstart] at hat
        have hmatched : parser.matchedCandidates parser.buffer.contents 0 ≠ [] := by
          rw [hat]
          exact hcand
        have hbyte := byteNext_of_candidates options hmatched
        rw [hat] at hbyte
        unfold analyzeCandidateFrames
        cases hresult : parser.analyzeCandidates parser.buffer.contents options
            candidate.candidates false none with
        | parsed frame n =>
            simp only [hresult] at hbyte ⊢
            exact Or.inr (Or.inr (Or.inr (Or.inl ⟨frame, n, hbyte, rfl⟩)))
        | needMore =>
            simp only [hresult] at hbyte ⊢
            exact Or.inl ⟨trivial, hbyte⟩
        | recoverableError error =>
            cases error with
            | none =>
                -- A failed bucket always has a first error to report.
                exact absurd
                  ((analyzeCandidates_eq_error hresult).2.2.2 rfl).1 hcand
            | some error =>
                simp only [hresult, Option.map_some] at hbyte ⊢
                exact Or.inr (Or.inr (Or.inr (Or.inr ⟨error, hbyte, rfl⟩)))
      · rw [if_pos hstart]
        refine Or.inr (Or.inr (Or.inl ⟨candidate.start, _, ⟨by omega, by omega, ?_⟩, rfl⟩))
        exact fun i hi => byteNext_before_candidate hfind hi

end FrameStreamParser

end ProtoScope.Scripting
