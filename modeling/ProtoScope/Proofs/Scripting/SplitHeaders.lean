/-
Headers cut by the end of the buffer.

The noise discard keeps `maxHeaderLength - 1` bytes when it finds no candidate, enough for
any header that has begun.  When it finds one it discards everything before it, also the
beginning of a longer header that encloses the one it found.  So the parser keeps every
possible header start exactly when no declared header can be shadowed like that.
-/
import ProtoScope.Proofs.Scripting.ChunkInvariance

namespace ProtoScope.Scripting

open Library FrameStreamParser FrameStreamConfig

namespace FrameStreamParser

variable {parser : FrameStreamParser} {options : StreamParseOptions} {batch : StreamParseBatch}

/-- The turns of the scan loop from one state on: the states its body runs at. -/
inductive ScanTurn (options : StreamParseOptions) :
    FrameStreamParser → StreamParseBatch → FrameStreamParser → StreamParseBatch → Prop where
  | here {parser : FrameStreamParser} {batch : StreamParseBatch} :
      parser.buffer.contents ≠ [] → ScanTurn options parser batch parser batch
  | next {parser parser' last : FrameStreamParser} {batch batch' lastBatch : StreamParseBatch} :
      parser.buffer.contents ≠ [] → parser.scanStep options batch = .next parser' batch' →
      ScanTurn options parser' batch' last lastBatch → ScanTurn options parser batch last lastBatch

/-- This turn discards `k` bytes as noise. -/
def DiscardsNoise (parser : FrameStreamParser) (options : StreamParseOptions)
    (batch : StreamParseBatch) (k : Nat) : Prop :=
  ∃ message,
    parser.scanStep options batch
        = .stop (parser.discardFront k) (batch.pushError (noiseError message k)) ∨
      parser.scanStep options batch
        = .next (parser.discardFront k) (batch.pushError (noiseError message k))

/-- **No reachable parser discards a byte from which the buffered bytes begin a header.** -/
def KeepsHeaderStarts (bufferDefinition : StreamBufferDefinition)
    (frames : List StreamFrameDefinition) : Prop :=
  ∀ parser, Reachable bufferDefinition frames parser → ∀ bytes options,
    ∀ turn batch, ScanTurn options (parser.appendIncomingBytes bytes).1
        (parser.appendIncomingBytes bytes).2 turn batch →
      ∀ k, turn.DiscardsNoise options batch k → ∀ i < k, ∀ frame ∈ frames,
        turn.buffer.contents.drop i <+: frame.header →
          turn.buffer.contents.drop i = frame.header

theorem ScanTurn.spec {last : FrameStreamParser} {lastBatch : StreamParseBatch}
    (h : ScanTurn options parser batch last lastBatch) :
    last.toFrameStreamConfig = parser.toFrameStreamConfig ∧
      last.buffer.capacity = parser.buffer.capacity ∧ last.buffer.contents ≠ [] := by
  induction h with
  | here hne => exact ⟨rfl, rfl, hne⟩
  | @next parser parser' last batch batch' lastBatch hne hstep _ ih =>
      obtain ⟨hconfig, hcapacity, hlast⟩ := ih
      suffices ∃ n, parser' = parser.discardFront n by
        obtain ⟨n, rfl⟩ := this
        exact ⟨hconfig, hcapacity.trans (capacity_discardFront _ _), hlast⟩
      rcases scanStep_cases options batch hne with
        ⟨heq, -⟩ | ⟨k, message, -, -, heq⟩ | ⟨k, message, -, heq⟩ | ⟨frame, n, -, heq⟩ |
          ⟨error, -, heq⟩ <;>
        rw [heq] at hstep <;> cases hstep
      · exact ⟨k, rfl⟩
      · exact ⟨n, rfl⟩
      · exact ⟨1, rfl⟩

/-- The batch a turn leaves, whether the loop ends or goes on. -/
def ScanStep.result : ScanStep → StreamParseBatch
  | .stop _ batch => batch
  | .next _ batch => batch

/-- What a turn discards as noise was noise byte by byte. -/
theorem DiscardsNoise.each {k : Nat} (hne : parser.buffer.contents ≠ [])
    (h : parser.DiscardsNoise options batch k) : parser.NoiseBlock options k := by
  obtain ⟨message, hstep⟩ := h
  have hbatch : (parser.scanStep options batch).result = batch.pushError (noiseError message k) := by
    rcases hstep with h | h <;> rw [h] <;> rfl
  have herrors := congrArg StreamParseBatch.errors hbatch
  rcases scanStep_cases options batch hne with
    ⟨heq, -⟩ | ⟨k', message', hblock, -, heq⟩ | ⟨k', message', hblock, heq⟩ |
      ⟨frame, n, -, heq⟩ | ⟨error, hbyte, heq⟩ <;> rw [heq] at herrors <;>
    simp only [ScanStep.result, StreamParseBatch.pushError, StreamParseBatch.pushFrame,
      List.append_cancel_left_eq, List.self_eq_append_right, List.cons.injEq, and_true,
      reduceCtorEq] at herrors
  · obtain rfl : k' = k := congrArg StreamParseError.droppedBytes herrors
    exact hblock
  · obtain rfl : k' = k := congrArg StreamParseError.droppedBytes herrors
    exact hblock
  · obtain ⟨-, hnoise⟩ := byteNext_error_code hbyte
    rw [herrors] at hnoise
    exact absurd rfl hnoise

/-- A noise byte begins no header, unless one is shadowed. -/
theorem not_header_start_of_noise {config : FrameStreamConfig} {limit : Nat} {v : List UInt8}
    {n : Nat} (hshadow : NoShadowedHeader limit config.frames) (hlimit : v.length ≤ limit)
    (hnoise : config.byteNext options v = some (.noise, n)) {frame : StreamFrameDefinition}
    (hframe : frame ∈ config.frames) (hbegin : v <+: frame.header) : v = frame.header := by
  by_contra hproper
  obtain ⟨-, -, hnone, hcond⟩ := byteNext_eq_noise hnoise
  rcases hcond with hlater | hlong
  · obtain ⟨candidate, hfind⟩ := Option.isSome_iff_exists.mp hlater
    obtain ⟨hlt, hcand, hat, -⟩ := findCandidate_eq_some hfind
    rw [← hat] at hcand
    obtain ⟨inner, hinner⟩ := List.exists_mem_of_ne_nil _ hcand
    obtain ⟨himem, hiheader, hipre⟩ := mem_matchedCandidates.mp hinner
    obtain ⟨first, hfirst, hfne, hfpre⟩ :=
      hshadow frame hframe v hbegin hproper hlimit inner himem candidate.start hlt hiheader hipre
    have : first ∈ config.matchedCandidates v 0 :=
      mem_matchedCandidates.mpr ⟨hfirst, hfne, hfpre⟩
    rw [hnone] at this
    cases this
  · have hle := length_header_le_max hframe
    exact hproper (hbegin.eq_of_length_le (by omega))

/-- Without a shadowed header, every run keeps every header start. -/
theorem keepsHeaderStarts_of_noShadow {bufferDefinition : StreamBufferDefinition}
    {frames : List StreamFrameDefinition}
    (hshadow : NoShadowedHeader bufferDefinition.limit frames) :
    KeepsHeaderStarts bufferDefinition frames := by
  intro parser hreach bytes options turn batch hturn k hdiscard i hi frame hframe hbegin
  obtain ⟨hdef, hframes, hcap⟩ := hreach.spec
  obtain ⟨hconfig, hcapacity, hne⟩ := hturn.spec
  rw [appendIncomingBytes_config] at hconfig
  rw [appendIncomingBytes_capacity] at hcapacity
  have hlimit := ensureAppendCapacity_le_limit hcap bytes.length
  have hnoise := (hdiscard.each hne).each i hi
  have hsize : turn.buffer.size ≤ turn.buffer.capacity := turn.buffer.size_le
  have hlen : (turn.buffer.contents.drop i).length ≤ bufferDefinition.limit := by
    rw [List.length_drop, ByteRingBuffer.length_contents, ← hdef]
    omega
  rw [hconfig] at hnoise
  rw [← hframes] at hshadow hframe
  exact not_header_start_of_noise hshadow hlen hnoise hframe hbegin

/-- A shadowed header is lost as soon as its beginning is all a fresh parser holds. -/
theorem noShadow_of_keepsHeaderStarts {bufferDefinition : StreamBufferDefinition}
    {frames : List StreamFrameDefinition} (h : KeepsHeaderStarts bufferDefinition frames) :
    NoShadowedHeader bufferDefinition.limit frames := by
  intro outer houter v hv hproper hlimit inner hinner i hi hiheader hipre
  by_contra hnone
  have hvne : v ≠ [] := List.length_pos_iff.mp (by omega)
  let config : FrameStreamConfig := ⟨bufferDefinition, frames, ∅⟩
  have hcontents : (config.start.appendIncomingBytes v).1.buffer.contents = v :=
    (appendIncomingBytes_lossless (appendIncomingBytes_fits v (roomy_start config)
      (by show 0 + v.length ≤ bufferDefinition.limit; omega))).1
  have hconfig : (config.start.appendIncomingBytes v).1.toFrameStreamConfig = config :=
    appendIncomingBytes_config _ _
  -- The first complete header of `v` lies after its first byte.
  have hempty : config.matchedCandidates v 0 = [] := by
    refine List.eq_nil_iff_forall_not_mem.mpr fun first hfirst => hnone ?_
    obtain ⟨hmem, hne, hpre⟩ := mem_matchedCandidates.mp hfirst
    exact ⟨first, hmem, hne, hpre⟩
  have hlater : config.findCandidate v ≠ none := by
    intro hc
    have hmem : inner ∈ config.matchedCandidates v i :=
      mem_matchedCandidates.mpr ⟨hinner, hiheader, hipre⟩
    rw [findCandidate_eq_none.mp hc i hi] at hmem
    cases hmem
  obtain ⟨candidate, hfind⟩ := Option.ne_none_iff_exists'.mp hlater
  obtain ⟨-, hcand, hat, -⟩ := findCandidate_eq_some hfind
  have hstart : candidate.start ≠ 0 := by
    intro hzero
    rw [hzero, hempty] at hat
    exact hcand hat.symm
  have hdiscard : (config.start.appendIncomingBytes v).1.DiscardsNoise {}
      (config.start.appendIncomingBytes v).2 candidate.start := by
    refine ⟨"已跳过帧头前噪声字节", Or.inr ?_⟩
    unfold scanStep
    rw [ensureLinearWindow_eq, hcontents, hconfig]
    simp only [hfind, if_pos hstart]
  have := h config.start .create v {} _ _
    (.here (by rw [hcontents]; exact hvne)) candidate.start hdiscard 0 (Nat.pos_of_ne_zero hstart)
    outer houter
  rw [hcontents, List.drop_zero] at this
  exact hproper (this hv)

/-- Without definitions nothing is scanned and nothing reported. -/
theorem report_of_no_frames (hframes : parser.frames = []) (bytes : List UInt8) :
    (parser.pushBytes bytes options).2.report = .nothing := by
  by_cases hbytes : bytes = []
  · simp only [pushBytes, if_pos hbytes]
    rfl
  have hframes' : (parser.appendIncomingBytes bytes).1.frames = [] := by
    rw [appendIncomingBytes_config]
    exact hframes
  unfold pushBytes
  rw [if_neg hbytes]
  simp only [if_pos hframes']
  exact appendIncomingBytes_report parser bytes

theorem reportAll_of_no_frames (hframes : parser.frames = []) (chunks : List (List UInt8)) :
    reportAll (parser.pushAll options chunks).2 = .nothing := by
  induction chunks generalizing parser with
  | nil => rfl
  | cons chunk chunks ih =>
      show ScanReport.append _ (reportAll _) = _
      rw [report_of_no_frames hframes, ScanReport.nothing_append]
      exact ih (by rw [pushBytes_config]; exact hframes)

/-- **The parser keeps every possible header start exactly when no declared header can be
shadowed**; and then, with headers that tell the definitions apart, a stream gives the same
report however it is cut, inside a header or anywhere else. -/
theorem keeps_header_starts_iff (bufferDefinition : StreamBufferDefinition)
    (frames : List StreamFrameDefinition) :
    (KeepsHeaderStarts bufferDefinition frames ↔
        NoShadowedHeader bufferDefinition.limit frames) ∧
      (NoShadowedHeader bufferDefinition.limit frames → PrefixFreeHeaders frames →
        ∀ (config : FrameStreamConfig) (options : StreamParseOptions)
          (chunks : List (List UInt8)), config.bufferDefinition = bufferDefinition →
          config.frames = frames → Lossless (config.start.pushAll options chunks).2 →
          (config.start.pushBytes chunks.flatten options).2.overflowed = false →
          reportAll (config.start.pushAll options chunks).2
            = (config.start.pushBytes chunks.flatten options).2.report) := by
  refine ⟨⟨noShadow_of_keepsHeaderStarts, keepsHeaderStarts_of_noShadow⟩, ?_⟩
  rintro hshadow hfree config options chunks rfl rfl hlossless hwhole
  by_cases hframes : config.frames = []
  · rw [reportAll_of_no_frames hframes, report_of_no_frames hframes]
  · have hstable : (config.byteScanner options).Stable config.bufferDefinition.limit :=
      FrameStreamConfig.stable_of_keepsFrames
        (FrameStreamConfig.exactHeaders_of_prefixFree hfree) hshadow
        (FrameStreamConfig.keepsFrames_of_prefixFree hfree)
    have hsettled := hstable.settled chunks.flatten
    rw [(FrameStreamConfig.pushAll_of_settled hframes hsettled hlossless).1,
      (FrameStreamConfig.pushBytes_of_settled hframes hsettled hwhole).1]

/-- Two headers with nothing in common. -/
def twoHeaders : List StreamFrameDefinition :=
  [{ name := "pair", header := [0xAA, 0xBB], size := some 4 },
   { name := "single", header := [0xCC], size := some 2 }]

theorem keeps_header_starts_two :
    KeepsHeaderStarts { capacity := 64 } twoHeaders ∧
      reportAll ((FrameStreamConfig.start ⟨{ capacity := 64 }, twoHeaders, ∅⟩).pushAll {}
          [[0xAA], [0xBB, 1, 2]]).2
        = ((FrameStreamConfig.start ⟨{ capacity := 64 }, twoHeaders, ∅⟩).pushBytes
          [0xAA, 0xBB, 1, 2] {}).2.report :=
  have hshadow : NoShadowedHeader (StreamBufferDefinition.limit { capacity := 64 }) twoHeaders := by
    decide
  ⟨(keeps_header_starts_iff _ _).1.mpr hshadow,
    (keeps_header_starts_iff _ _).2 hshadow (by decide) ⟨{ capacity := 64 }, twoHeaders, ∅⟩ {}
      [[0xAA], [0xBB, 1, 2]] rfl rfl (by decide) (by decide)⟩

/-- A header inside the beginning of another one. -/
def nestedHeaders : List StreamFrameDefinition :=
  [{ name := "outer", header := [0xAA, 0xBB, 0xCC], size := some 4 },
   { name := "inner", header := [0xBB], size := some 2 }]

/-- `AA BB` is the beginning of the outer header, and its first byte is discarded as noise: the
split stream yields another frame than the unsplit one. -/
theorem nested_header_start_discarded :
    ¬ KeepsHeaderStarts { capacity := 64 } nestedHeaders ∧
      (reportAll ((FrameStreamConfig.start ⟨{ capacity := 64 }, nestedHeaders, ∅⟩).pushAll {}
          [[0xAA, 0xBB], [0xCC, 1]]).2).frames.map (·.raw) = [[0xBB, 0xCC]] ∧
      ((FrameStreamConfig.start ⟨{ capacity := 64 }, nestedHeaders, ∅⟩).pushBytes
          [0xAA, 0xBB, 0xCC, 1] {}).2.frames.map (·.raw) = [[0xAA, 0xBB, 0xCC, 1]] :=
  ⟨fun h => absurd (noShadow_of_keepsHeaderStarts h) (by decide), by decide, by decide⟩

end FrameStreamParser

end ProtoScope.Scripting
