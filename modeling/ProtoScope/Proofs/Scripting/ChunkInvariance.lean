/-
What a run reports does not depend on how the stream was cut.

A run that drops nothing feeds the byte scanner, so it reports the scan of the whole stream
wherever that scan is settled.  With one frame definition it always is, and the scan is
the greedy one a reader would write down.  With several definitions two things can
unsettle it.  A header inside the beginning of a longer header makes the search throw the
longer one away; and among candidates for one header, a chunk boundary can let a shorter
frame through before a longer one, which the search prefers, is complete.  Each gets its
exact condition here.
-/
import ProtoScope.Proofs.Scripting.ScanStability
import ProtoScope.Proofs.Scripting.StreamRun

namespace ProtoScope.Scripting

open Library FrameStreamParser

namespace FrameStreamConfig

variable {config : FrameStreamConfig} {options : StreamParseOptions}

/-! ### Runs from a fresh parser -/

theorem byteNext_start (config : FrameStreamConfig) (options : StreamParseOptions) :
    config.start.byteNext options config.start.buffer.contents = none := rfl

theorem capacity_start (config : FrameStreamConfig) :
    config.start.buffer.capacity = config.bufferDefinition.capacity :=
  ByteRingBuffer.capacity_ofCapacity _

/-- **Where the scan of the stream is settled, every lossless run reports that scan.** -/
theorem pushAll_of_settled {chunks : List (List UInt8)} (hframes : config.frames ≠ [])
    (hsettled : (config.byteScanner options).Settled config.bufferDefinition.limit chunks.flatten)
    (hlossless : Lossless (config.start.pushAll options chunks).2) :
    reportAll (config.start.pushAll options chunks).2
        = .ofOutcomes ((config.byteScanner options).run chunks.flatten).1 ∧
      (config.start.pushAll options chunks).1.buffer.contents
        = ((config.byteScanner options).run chunks.flatten).2 := by
  obtain ⟨hcontents, hreport, hfits⟩ := pushAll_eq_feedAll
    (show config.start.frames ≠ [] from hframes)
    (by rw [capacity_start]; exact config.bufferDefinition.capacity_le_limit)
    (byteNext_start config options) hlossless
  have hrun := Scanner.Settled.feedAll_eq_run (S := config.byteScanner options) (w := [])
    hsettled (byteNext_start config options) hfits
  rw [List.nil_append] at hrun
  have hnil : config.start.buffer.contents = [] := rfl
  rw [hnil] at hcontents hreport
  change _ = ((config.byteScanner options).feedAll [] chunks).2 at hcontents
  change _ = ScanReport.ofOutcomes ((config.byteScanner options).feedAll [] chunks).1 at hreport
  rw [hrun] at hcontents hreport
  exact ⟨hreport, hcontents⟩

/-- A run of one chunk is one push. -/
theorem pushAll_singleton (parser : FrameStreamParser) (s : List UInt8) :
    parser.pushAll options [s] = ((parser.pushBytes s options).1, [(parser.pushBytes s options).2]) :=
  rfl

/-- The same for a stream pushed at once. -/
theorem pushBytes_of_settled {s : List UInt8} (hframes : config.frames ≠ [])
    (hsettled : (config.byteScanner options).Settled config.bufferDefinition.limit s)
    (hlossless : (config.start.pushBytes s options).2.overflowed = false) :
    (config.start.pushBytes s options).2.report
        = .ofOutcomes ((config.byteScanner options).run s).1 ∧
      (config.start.pushBytes s options).1.buffer.contents
        = ((config.byteScanner options).run s).2 := by
  have hone : Lossless (config.start.pushAll options [s]).2 := by
    intro batch hbatch
    rw [pushAll_singleton, List.mem_singleton] at hbatch
    rw [hbatch]
    exact hlossless
  rw [← List.flatten_singleton (l := s)] at hsettled
  obtain ⟨hreport, hcontents⟩ := pushAll_of_settled hframes hsettled hone
  rw [pushAll_singleton, List.flatten_singleton] at hreport hcontents
  refine ⟨?_, hcontents⟩
  simpa [reportAll] using hreport

theorem roomy_start (config : FrameStreamConfig) : config.start.Roomy := by
  unfold Roomy
  rw [capacity_start]
  show if config.bufferDefinition.dropOldest then _ else _
  split_ifs
  · rfl
  · exact Nat.le_refl _

/-- A fresh parser receives a stream within the limit whole, however it is cut. -/
theorem start_lossless {chunks : List (List UInt8)} (hframes : config.frames ≠ [])
    (h : chunks.flatten.length ≤ config.bufferDefinition.limit) :
    Lossless (config.start.pushAll options chunks).2 :=
  pushAll_lossless hframes (roomy_start config) (by
    show 0 + _ ≤ config.bufferDefinition.limit
    omega)

/-! ### One frame definition -/

/-- The greedy scan for one definition: at its header take the frame, skip a byte for a broken
one, wait for an incomplete one; elsewhere skip a byte once it cannot start the header. -/
def referenceNext (config : FrameStreamConfig) (frame : StreamFrameDefinition)
    (options : StreamParseOptions) (w : List UInt8) : Option (ScanOutcome × Nat) :=
  if w = [] then none
  else if frame.header ≠ [] ∧ frame.header <+: w then
    match config.analyzeFrame frame w options with
    | .ok (parsed, frameLength) => some (.frame parsed, frameLength)
    | .error .needMore => none
    | .error (.recoverableError error) => some (.error error, 1)
  else if frame.header.length ≤ w.length then some (.noise, 1)
  else none

theorem byteNext_eq_referenceNext {frame : StreamFrameDefinition} (hframes : config.frames = [frame])
    (w : List UInt8) : config.byteNext options w = config.referenceNext frame options w := by
  have hmem : ∀ {i : Nat} {other : StreamFrameDefinition},
      other ∈ config.matchedCandidates w i ↔
        other = frame ∧ frame.header ≠ [] ∧ frame.header <+: w.drop i := by
    intro i other
    rw [mem_matchedCandidates, hframes, List.mem_singleton]
    constructor
    · rintro ⟨rfl, h⟩
      exact ⟨rfl, h⟩
    · rintro ⟨rfl, h⟩
      exact ⟨rfl, h⟩
  have hmax : config.maxHeaderLength = frame.header.length := by
    simp [maxHeaderLength, hframes]
  unfold referenceNext
  by_cases hw : w = []
  · rw [if_pos hw, hw]
    rfl
  rw [if_neg hw]
  by_cases hheader : frame.header ≠ [] ∧ frame.header <+: w
  · have hat : frame ∈ config.matchedCandidates w 0 := hmem.mpr ⟨rfl, hheader⟩
    have hne : config.matchedCandidates w 0 ≠ [] := List.ne_nil_of_mem hat
    have hfree : PrefixFreeHeaders config.frames := by
      rw [hframes]
      exact List.pairwise_singleton _ _
    obtain ⟨other, hone⟩ := matchedCandidates_unique hfree 0 hne
    rw [hone, List.mem_singleton] at hat
    subst hat
    rw [if_pos hheader, byteNext_of_candidates options hne, hone]
    unfold analyzeCandidates
    cases config.analyzeFrame frame w options with
    | ok r => rfl
    | error stop => cases stop <;> rfl
  · have hnone : config.matchedCandidates w 0 = [] := by
      refine List.eq_nil_iff_forall_not_mem.mpr fun other hother => ?_
      exact hheader (hmem.mp hother).2
    rw [if_neg hheader, byteNext_of_no_candidate hw hnone, hmax]
    -- A later candidate needs a whole header in the window as well.
    have hlater : (config.findCandidate w).isSome = true → frame.header.length ≤ w.length := by
      intro hsome
      obtain ⟨candidate, hfind⟩ := Option.isSome_iff_exists.mp hsome
      obtain ⟨-, hcand, hat, -⟩ := findCandidate_eq_some hfind
      rw [← hat] at hcand
      obtain ⟨other, hother⟩ := List.exists_mem_of_ne_nil _ hcand
      have hle := (hmem.mp hother).2.2.length_le
      rw [List.length_drop] at hle
      omega
    by_cases hlong : frame.header.length ≤ w.length
    · rw [if_pos (Or.inr hlong), if_pos hlong]
    · rw [if_neg hlong, if_neg]
      rintro (h | h)
      · exact hlong (hlater h)
      · exact hlong h

/-- The greedy reference scan of a stream. -/
def referenceScan (config : FrameStreamConfig) (frame : StreamFrameDefinition)
    (options : StreamParseOptions) (hframes : config.frames = [frame]) :
    Scanner UInt8 ScanOutcome where
  next := config.referenceNext frame options
  next_bounds := fun h => byteNext_bounds (by rw [byteNext_eq_referenceNext hframes]; exact h)

theorem byteScanner_eq_referenceScan {frame : StreamFrameDefinition}
    (hframes : config.frames = [frame]) :
    config.byteScanner options = config.referenceScan frame options hframes := by
  unfold byteScanner referenceScan
  congr
  exact funext (byteNext_eq_referenceNext hframes)

/-- One header cannot shadow itself. -/
theorem noShadowedHeader_singleton (limit : Nat) (frame : StreamFrameDefinition) :
    NoShadowedHeader limit [frame] := by
  intro outer houter v hv hproper _ inner hinner i _ hne hpre
  rw [List.mem_singleton] at houter hinner
  subst houter hinner
  have hle := hpre.length_le
  rw [List.length_drop] at hle
  exact absurd (hv.eq_of_length_le (by omega)) hproper

theorem settled_singleton {frame : StreamFrameDefinition} (hframes : config.frames = [frame])
    (s : List UInt8) : (config.byteScanner options).Settled config.bufferDefinition.limit s := by
  have hfree : PrefixFreeHeaders config.frames := by
    rw [hframes]
    exact List.pairwise_singleton _ _
  refine Scanner.Stable.settled (stable_of_keepsFrames (exactHeaders_of_prefixFree hfree) ?_
    (keepsFrames_of_prefixFree hfree)) s
  rw [hframes]
  exact noShadowedHeader_singleton _ _

/-- **One frame definition: every lossless run reports the greedy scan of the stream**, and so
does the push of the whole stream at once, if the buffer can hold it. -/
theorem chunk_invariance_single_frame (config : FrameStreamConfig) (frame : StreamFrameDefinition)
    (hframes : config.frames = [frame]) (options : StreamParseOptions)
    (chunks : List (List UInt8)) (hlossless : Lossless (config.start.pushAll options chunks).2) :
    let run := config.start.pushAll options chunks
    let scan := (config.referenceScan frame options hframes).run chunks.flatten
    let whole := config.start.pushBytes chunks.flatten options
    (reportAll run.2 = .ofOutcomes scan.1 ∧ run.1.buffer.contents = scan.2) ∧
      (whole.2.overflowed = false →
        whole.2.report = reportAll run.2 ∧
          whole.1.buffer.contents = run.1.buffer.contents) := by
  have hne : config.frames ≠ [] := by simp [hframes]
  have hrun := pushAll_of_settled hne (settled_singleton hframes _) hlossless
  rw [byteScanner_eq_referenceScan hframes] at hrun
  refine ⟨hrun, fun hwhole => ?_⟩
  have hone := pushBytes_of_settled hne (settled_singleton hframes _) hwhole
  rw [byteScanner_eq_referenceScan hframes] at hone
  exact ⟨hone.1.trans hrun.1.symm, hone.2.trans hrun.2.symm⟩

/-- Four bytes of buffer and frames of two. -/
def tinyConfig : FrameStreamConfig where
  bufferDefinition := { capacity := 4, maxCapacity := 4 }
  frames := [{ name := "tiny", header := [0xAA], size := some 2 }]

theorem chunk_invariance_single_frame_tiny :
    let run := tinyConfig.start.pushAll {} [[0xAA, 1], [0xAA, 2], [0xAA, 3]]
    reportAll run.2 = .ofOutcomes ((tinyConfig.referenceScan _ {} rfl).run
      [[0xAA, 1], [0xAA, 2], [0xAA, 3]].flatten).1 :=
  (chunk_invariance_single_frame tinyConfig _ rfl {} [[0xAA, 1], [0xAA, 2], [0xAA, 3]]
    (by decide)).1.1

/-- Cut into chunks the stream passes through a buffer that cannot hold it at once: the three
chunks lose nothing, the single push overflows and reports one frame less. -/
theorem single_push_overflows :
    tinyConfig.bufferDefinition.dropOldest = false ∧
      Lossless (tinyConfig.start.pushAll {} [[0xAA, 1], [0xAA, 2], [0xAA, 3]]).2 ∧
      (reportAll (tinyConfig.start.pushAll {} [[0xAA, 1], [0xAA, 2], [0xAA, 3]]).2).frames.map
          (·.raw) = [[0xAA, 1], [0xAA, 2], [0xAA, 3]] ∧
      (tinyConfig.start.pushBytes [0xAA, 1, 0xAA, 2, 0xAA, 3] {}).2.frames.map (·.raw)
        = [[0xAA, 1], [0xAA, 2]] := by
  exact ⟨rfl, by decide, by decide, by decide⟩

end FrameStreamConfig

end ProtoScope.Scripting
