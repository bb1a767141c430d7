/-
Several definitions for one header.

The candidates of a header are tried longest first, and a frame is taken from the first that
parses; one that waits is passed over when a later one parses.  So the end of a chunk can
decide: a short frame that is complete wins over a long one that is not, although the long
one would win with more bytes.  The report is independent of the cut exactly when no window
parses a frame that a longer window would replace.
-/
import ProtoScope.Proofs.Scripting.ChunkInvariance

namespace ProtoScope.Scripting

open Library FrameStreamParser

/-- Headers are equal, or neither begins, contains or overlaps the other. -/
def SeparateHeaders (frames : List StreamFrameDefinition) : Prop :=
  ∀ a ∈ frames, ∀ b ∈ frames, a.header ≠ b.header →
    ¬ a.header <+: b.header ∧
      ∀ i < b.header.length, 0 < i →
        ¬ a.header <+: b.header.drop i ∧ ¬ b.header.drop i <+: a.header

instance (frames : List StreamFrameDefinition) : Decidable (SeparateHeaders frames) :=
  inferInstanceAs (Decidable (∀ a ∈ frames, ∀ b ∈ frames, _))

theorem SeparateHeaders.exact {frames : List StreamFrameDefinition} (h : SeparateHeaders frames) :
    ExactHeaders frames := by
  intro a ha b hb _ hbegin
  by_contra hne
  exact (h a ha b hb hne).1 hbegin

theorem SeparateHeaders.noShadow {frames : List StreamFrameDefinition} (h : SeparateHeaders frames)
    (limit : Nat) : NoShadowedHeader limit frames := by
  intro outer houter v hv hproper _ inner hinner i hi hheader hbegin
  rcases Nat.eq_zero_or_pos i with rfl | hpos
  · exact ⟨inner, hinner, hheader, by simpa using hbegin⟩
  · have hlong := hv.length_le
    by_cases heq : inner.header = outer.header
    · have hle := hbegin.length_le
      rw [List.length_drop, heq] at hle
      omega
    · have hinside := ((h inner hinner outer houter heq).2 i (by omega) hpos).1
      exact absurd (hbegin.trans (hv.drop i)) hinside

namespace FrameStreamConfig

variable {config : FrameStreamConfig} {options : StreamParseOptions} {limit : Nat}

/-- Along the scan of `s`, no window of at most `limit` bytes parses a frame that all the bytes
from there on would replace. -/
inductive SettledChoice (config : FrameStreamConfig) (options : StreamParseOptions) (limit : Nat) :
    List UInt8 → Prop where
  | intro (s : List UInt8)
      (here : ∀ w x parsed n, s = w ++ x → w.length ≤ limit →
        config.byteNext options w = some (.frame parsed, n) →
        config.byteNext options s = some (.frame parsed, n))
      (later : ∀ outcome n, config.byteNext options s = some (outcome, n) →
        SettledChoice config options limit (s.drop n)) : SettledChoice config options limit s

/-- With separate headers only the choice of frames can be unsettled. -/
theorem SettledChoice.settled (hheaders : SeparateHeaders config.frames) {s : List UInt8}
    (h : SettledChoice config options limit s) : (config.byteScanner options).Settled limit s := by
  induction h with
  | intro s here later ih =>
      refine .intro s ?_ fun outcome n hnext => ih outcome n hnext
      rintro w x ⟨outcome, n⟩ rfl hlimit hnext
      cases outcome with
      | noise => exact noise_stable (hheaders.noShadow limit) hlimit hnext x
      | frame parsed => exact here w x parsed n rfl hlimit hnext
      | error error => exact error_stable hheaders.exact hnext x

/-- No window parses a frame that a longer one, of at most `limit` bytes, would replace. -/
def NoLateCandidate (config : FrameStreamConfig) (options : StreamParseOptions) (limit : Nat) :
    Prop :=
  ∀ w x parsed n, (w ++ x).length ≤ limit →
    config.byteNext options w = some (.frame parsed, n) →
    config.byteNext options (w ++ x) = some (.frame parsed, n)

theorem NoLateCandidate.settledChoice (h : NoLateCandidate config options limit) {s : List UInt8}
    (hs : s.length ≤ limit) : SettledChoice config options limit s := by
  induction s using (config.byteScanner options).run_induction with
  | wait s hn =>
      refine .intro s (fun w x parsed n hcut _ hnext => ?_) fun outcome n hnext => ?_
      · rw [hcut] at hs ⊢
        exact h w x parsed n hs hnext
      · exact absurd (hn.symm.trans hnext) (by simp)
  | step s outcome n hn ih =>
      refine .intro s (fun w x parsed n hcut _ hnext => ?_) fun outcome' n' hnext => ?_
      · rw [hcut] at hs ⊢
        exact h w x parsed n hs hnext
      · obtain ⟨rfl, rfl⟩ := Prod.mk.inj (Option.some.inj (hn.symm.trans hnext))
        exact ih (by rw [List.length_drop]; omega)

/-- What a listener sees of the frames: their names and raw bytes. -/
def frameKeys (report : ScanReport) : List (String × List UInt8) :=
  report.frames.map fun frame => (frame.name, frame.raw)

/-- A longer window parses some frame where a shorter one did. -/
theorem byteNext_append_frame (hexact : ExactHeaders config.frames) {w : List UInt8}
    {parsed : StreamParsedFrame} {n : Nat}
    (h : config.byteNext options w = some (.frame parsed, n)) (x : List UInt8) :
    ∃ parsed' n', config.byteNext options (w ++ x) = some (.frame parsed', n') := by
  have hresult := byteNext_eq_frame.mp h
  have hne : config.matchedCandidates w 0 ≠ [] := by
    intro hnil
    rw [hnil] at hresult
    cases hresult
  obtain ⟨before, frame, after, hsplit, hok, -⟩ := analyzeCandidates_eq_parsed.mp hresult
  have hok' : config.analyzeFrame frame (w ++ x) options = .ok (parsed, n) := by
    rw [analyzeFrame_append (by rw [hok]; simp) x, hok]
  have hcandidates := matchedCandidates_stable hexact hne x
  have hmem : frame ∈ config.matchedCandidates w 0 := by
    rw [hsplit]
    simp
  cases hlonger : config.analyzeCandidates (w ++ x) options (config.matchedCandidates w 0) false
      none with
  | parsed parsed' n' =>
      refine ⟨parsed', n', byteNext_eq_frame.mpr ?_⟩
      rw [hcandidates, hlonger]
  | needMore => exact absurd hok' ((analyzeCandidates_eq_needMore.mp hlonger).1 frame hmem _)
  | recoverableError error =>
      obtain ⟨e, he⟩ := (analyzeCandidates_eq_error hlonger).2.1 frame hmem
      rw [hok'] at he
      cases he

/-- Frames of one name come from one definition, so they agree on every window. -/
theorem byteNext_frame_of_name (hnames : (config.frames.map (·.name)).Nodup) {w x : List UInt8}
    {parsed parsed' : StreamParsedFrame} {n n' : Nat}
    (h : config.byteNext options w = some (.frame parsed, n))
    (h' : config.byteNext options (w ++ x) = some (.frame parsed', n'))
    (hname : parsed'.name = parsed.name) : parsed' = parsed ∧ n' = n := by
  have hmem : ∀ {v : List UInt8} {before after : List StreamFrameDefinition}
      {frame : StreamFrameDefinition},
      config.matchedCandidates v 0 = before ++ frame :: after → frame ∈ config.frames := by
    intro v before after frame hsplit
    have hat : frame ∈ config.matchedCandidates v 0 := by
      rw [hsplit]
      simp
    exact (mem_matchedCandidates.mp hat).1
  obtain ⟨before, frame, after, hsplit, hok, -⟩ :=
    analyzeCandidates_eq_parsed.mp (byteNext_eq_frame.mp h)
  obtain ⟨before', frame', after', hsplit', hok', -⟩ :=
    analyzeCandidates_eq_parsed.mp (byteNext_eq_frame.mp h')
  have hframe : frame' = frame := by
    refine List.inj_on_of_nodup_map hnames (hmem hsplit') (hmem hsplit) ?_
    rw [← (analyzeFrame_eq_ok hok').2.2.1, hname, (analyzeFrame_eq_ok hok).2.2.1]
  subst hframe
  rw [analyzeFrame_append (by rw [hok]; simp) x, hok] at hok'
  cases hok'
  exact ⟨rfl, rfl⟩

/-- The first frame of a scan that starts with one. -/
theorem frameKeys_head? {w : List UInt8} {parsed : StreamParsedFrame} {n : Nat}
    (h : config.byteNext options w = some (.frame parsed, n)) (more : List ScanOutcome) :
    (frameKeys (.ofOutcomes (((config.byteScanner options).run w).1 ++ more))).head?
      = some (parsed.name, parsed.raw) := by
  rw [Scanner.run_of_some (config.byteScanner options) h]
  simp [frameKeys, ScanReport.ofOutcomes, ScanOutcome.frame?]

/-- If no cut changes the frames, no window parses too early. -/
theorem noLateCandidate_of_independent (hframes : config.frames ≠ [])
    (hheaders : SeparateHeaders config.frames) (hnames : (config.frames.map (·.name)).Nodup)
    (h : ∀ chunks chunks' : List (List UInt8), chunks.flatten = chunks'.flatten →
      chunks.flatten.length ≤ config.bufferDefinition.limit →
      frameKeys (reportAll (config.start.pushAll options chunks).2)
        = frameKeys (reportAll (config.start.pushAll options chunks').2)) :
    NoLateCandidate config options config.bufferDefinition.limit := by
  intro w x parsed n hlen hnext
  obtain ⟨parsed', n', hnext'⟩ := byteNext_append_frame hheaders.exact hnext x
  have hreport : ∀ chunks : List (List UInt8),
      chunks.flatten.length ≤ config.bufferDefinition.limit →
      reportAll (config.start.pushAll options chunks).2
        = .ofOutcomes ((config.byteScanner options).feedAll [] chunks).1 := by
    intro chunks hchunks
    exact (pushAll_eq_feedAll (show config.start.frames ≠ [] from hframes)
      (by rw [capacity_start]; exact config.bufferDefinition.capacity_le_limit)
      (byteNext_start config options) (start_lossless hframes hchunks)).2.1
  have hsame := h [w, x] [w ++ x] (by simp) (by simpa using hlen)
  rw [hreport _ (by simpa using hlen), hreport _ (by simpa using hlen)] at hsame
  have hhead := congrArg List.head? hsame
  simp only [Scanner.feedAll, List.nil_append] at hhead
  rw [frameKeys_head? hnext, frameKeys_head? hnext'] at hhead
  have hname := (Prod.mk.inj (Option.some.inj hhead)).1.symm
  obtain ⟨rfl, rfl⟩ := byteNext_frame_of_name hnames hnext hnext' hname
  exact hnext'

/-- Two definitions for one header, four and two bytes long. -/
def sharedConfig : FrameStreamConfig where
  bufferDefinition := { capacity := 64 }
  frames :=
    [{ name := "long", header := [0xAA], size := some 4 },
     { name := "short", header := [0xAA], size := some 2 }]

/-- A stream with no header byte never has a choice to settle. -/
theorem settledChoice_without_header {s : List UInt8} (h : 0xAA ∉ s) :
    SettledChoice sharedConfig options limit s := by
  have hnone : ∀ v : List UInt8, 0xAA ∉ v → sharedConfig.matchedCandidates v 0 = [] := by
    intro v hv
    refine List.eq_nil_iff_forall_not_mem.mpr fun frame hframe => ?_
    obtain ⟨hmem, -, hbegin⟩ := mem_matchedCandidates.mp hframe
    have hheader : frame.header = [0xAA] := by
      fin_cases hmem <;> rfl
    rw [hheader, List.drop_zero] at hbegin
    exact hv (hbegin.subset List.mem_cons_self)
  induction s using (sharedConfig.byteScanner options).run_induction with
  | wait s hn =>
      refine .intro s (fun w x parsed n hcut _ hnext => ?_) fun outcome n hnext =>
        absurd (hn.symm.trans hnext) (by simp)
      have hw := hnone w fun hmem => h (by rw [hcut]; exact List.mem_append_left _ hmem)
      have hresult := byteNext_eq_frame.mp hnext
      rw [hw] at hresult
      cases hresult
  | step s outcome n hn ih =>
      refine .intro s (fun w x parsed n hcut _ hnext => ?_) fun outcome' n' hnext => ?_
      · have hw := hnone w fun hmem => h (by rw [hcut]; exact List.mem_append_left _ hmem)
        have hresult := byteNext_eq_frame.mp hnext
        rw [hw] at hresult
        cases hresult
      · obtain ⟨rfl, rfl⟩ := Prod.mk.inj (Option.some.inj (hn.symm.trans hnext))
        exact ih fun hmem => h (List.mem_of_mem_drop hmem)

end FrameStreamConfig

end ProtoScope.Scripting
