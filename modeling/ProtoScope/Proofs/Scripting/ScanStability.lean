/-
Which decisions of the scan survive more bytes.

An error always does, once no header is a proper prefix of another.  Noise does unless a
complete header sits inside the beginning of a longer one: then the search settles on the
inner header while the outer one might still be completed.  `NoShadowedHeader` excludes
that.  A parsed frame does when it had no competitor; with several candidates for one
header, a longer window can complete one that comes earlier in the bucket.
-/
import ProtoScope.Proofs.Scripting.ByteScan

namespace ProtoScope.Scripting

open Library

/-- No header is a proper prefix of another one. -/
def ExactHeaders (frames : List StreamFrameDefinition) : Prop :=
  ∀ a ∈ frames, ∀ b ∈ frames, a.header ≠ [] → a.header <+: b.header → a.header = b.header

/-- Neither header begins the other. -/
def Incomparable (a b : StreamFrameDefinition) : Prop :=
  ¬ a.header <+: b.header ∧ ¬ b.header <+: a.header

instance : Std.Symm Incomparable := ⟨fun _ _ h => ⟨h.2, h.1⟩⟩

/-- No header equals or begins the header of another definition. -/
def PrefixFreeHeaders (frames : List StreamFrameDefinition) : Prop := frames.Pairwise Incomparable

/-- If `v` contains a complete header, it starts with one. -/
def HeadedIfAny (frames : List StreamFrameDefinition) (v : List UInt8) : Prop :=
  ∀ inner ∈ frames, ∀ i < v.length, inner.header ≠ [] → inner.header <+: v.drop i →
    ∃ first ∈ frames, first.header ≠ [] ∧ first.header <+: v

/-- A beginning of a header (of at most `limit` bytes) hides no other header inside it. -/
def NoShadowedHeader (limit : Nat) (frames : List StreamFrameDefinition) : Prop :=
  ∀ outer ∈ frames, ∀ v, v <+: outer.header → v ≠ outer.header → v.length ≤ limit →
    HeadedIfAny frames v

instance (a b : StreamFrameDefinition) : Decidable (Incomparable a b) :=
  inferInstanceAs (Decidable (_ ∧ _))

instance (frames : List StreamFrameDefinition) : Decidable (PrefixFreeHeaders frames) :=
  inferInstanceAs (Decidable (frames.Pairwise Incomparable))

instance (frames : List StreamFrameDefinition) (v : List UInt8) :
    Decidable (HeadedIfAny frames v) :=
  inferInstanceAs (Decidable (∀ inner ∈ frames, ∀ i < v.length, _))

/-- The beginnings of a header are its cuts, so shadowing can be checked. -/
theorem noShadowedHeader_iff {limit : Nat} {frames : List StreamFrameDefinition} :
    NoShadowedHeader limit frames ↔
      ∀ outer ∈ frames, ∀ k < outer.header.length, k ≤ limit →
        HeadedIfAny frames (outer.header.take k) := by
  constructor
  · intro h outer houter k hk hlimit
    have hlen : (outer.header.take k).length = k := by
      rw [List.length_take]
      omega
    refine h outer houter _ (List.take_prefix _ _) (fun heq => ?_) (by omega)
    rw [heq] at hlen
    omega
  · intro h outer houter v hv hproper hlimit
    have hlt : v.length < outer.header.length := by
      rcases Nat.lt_or_ge v.length outer.header.length with hlt | hge
      · exact hlt
      · exact absurd (hv.eq_of_length_le hge) hproper
    rw [List.prefix_iff_eq_take.mp hv]
    exact h outer houter v.length hlt hlimit

instance (limit : Nat) (frames : List StreamFrameDefinition) :
    Decidable (NoShadowedHeader limit frames) := decidable_of_iff' _ noShadowedHeader_iff

/-- A longer window parses the frame a shorter one parsed. -/
def KeepsFrames (config : FrameStreamConfig) (options : StreamParseOptions) (limit : Nat) : Prop :=
  ∀ w x parsed n, w.length ≤ limit → config.byteNext options w = some (.frame parsed, n) →
    config.byteNext options (w ++ x) = some (.frame parsed, n)

namespace FrameStreamConfig

variable {config : FrameStreamConfig} {options : StreamParseOptions} {limit : Nat}
  {w : List UInt8}

/-- The candidates of a position are complete there, so a longer window keeps them. -/
theorem matchedCandidates_stable (hexact : ExactHeaders config.frames)
    (hne : config.matchedCandidates w 0 ≠ []) (x : List UInt8) :
    config.matchedCandidates (w ++ x) 0 = config.matchedCandidates w 0 := by
  obtain ⟨known, hknown⟩ := List.exists_mem_of_ne_nil _ hne
  obtain ⟨hmem, hheader, hbegin⟩ := mem_matchedCandidates.mp hknown
  rw [List.drop_zero] at hbegin
  refine matchedCandidates_append (ne_nil_of_matchedCandidates hne) fun frame hframe hgrown => ?_
  rcases List.prefix_or_prefix_of_prefix hgrown (hbegin.trans (List.prefix_append w x)) with h | h
  · exact h.trans hbegin
  · rw [← hexact known hmem frame hframe hheader h]
    exact hbegin

theorem analyzeCandidates_congr {w' : List UInt8} {candidates : List StreamFrameDefinition}
    (h : ∀ frame ∈ candidates,
      config.analyzeFrame frame w' options = config.analyzeFrame frame w options)
    (needMore : Bool) (firstError : Option StreamParseError) :
    config.analyzeCandidates w' options candidates needMore firstError
      = config.analyzeCandidates w options candidates needMore firstError := by
  induction candidates generalizing needMore firstError with
  | nil => rfl
  | cons frame rest ih =>
      have ih' := ih fun other ho => h other (List.mem_cons_of_mem _ ho)
      unfold analyzeCandidates
      rw [h frame List.mem_cons_self]
      split
      · rfl
      · exact ih' _ _
      · exact ih' _ _

/-- An error stands for every longer window. -/
theorem error_stable (hexact : ExactHeaders config.frames) {error : StreamParseError} {n : Nat}
    (h : config.byteNext options w = some (.error error, n)) (x : List UInt8) :
    config.byteNext options (w ++ x) = some (.error error, n) := by
  obtain ⟨rfl, hne, hresult⟩ := byteNext_eq_error.mp h
  have hcandidates := matchedCandidates_stable hexact hne x
  refine byteNext_eq_error.mpr ⟨rfl, by rwa [hcandidates], ?_⟩
  rw [hcandidates, analyzeCandidates_congr, hresult]
  intro frame hframe
  obtain ⟨e, he⟩ := (analyzeCandidates_eq_error hresult).2.1 frame hframe
  exact analyzeFrame_append (by rw [he]; simp) x

/-- Noise is noise for every longer window, unless a header was shadowed. -/
theorem noise_stable (hshadow : NoShadowedHeader limit config.frames) (hlimit : w.length ≤ limit)
    {n : Nat} (h : config.byteNext options w = some (.noise, n)) (x : List UInt8) :
    config.byteNext options (w ++ x) = some (.noise, n) := by
  obtain ⟨rfl, hne, hnone, hcond⟩ := byteNext_eq_noise h
  have hgrown : config.matchedCandidates (w ++ x) 0 = [] := by
    by_contra hsome
    obtain ⟨outer, houter⟩ := List.exists_mem_of_ne_nil _ hsome
    obtain ⟨hmem, hheader, hbegin⟩ := mem_matchedCandidates.mp houter
    rw [List.drop_zero] at hbegin
    have hnot : ∀ frame ∈ config.frames, frame.header ≠ [] → ¬ frame.header <+: w := by
      intro frame hframe hfne hpre
      have : frame ∈ config.matchedCandidates w 0 := mem_matchedCandidates.mpr ⟨hframe, hfne, hpre⟩
      rw [hnone] at this
      cases this
    have hstart : w <+: outer.header := by
      rcases List.prefix_or_prefix_of_prefix hbegin (List.prefix_append w x) with h | h
      · exact absurd h (hnot outer hmem hheader)
      · exact h
    have hproper : w ≠ outer.header := fun heq => hnot outer hmem hheader (by rw [heq])
    rcases hcond with hlater | hlong
    · obtain ⟨candidate, hfind⟩ := Option.isSome_iff_exists.mp hlater
      obtain ⟨hlt, hcand, hat, -⟩ := findCandidate_eq_some hfind
      rw [← hat] at hcand
      obtain ⟨inner, hinner⟩ := List.exists_mem_of_ne_nil _ hcand
      obtain ⟨himem, hiheader, hipre⟩ := mem_matchedCandidates.mp hinner
      obtain ⟨first, hfirst, hfne, hfpre⟩ := hshadow outer hmem w hstart hproper hlimit inner himem
        candidate.start hlt hiheader hipre
      exact hnot first hfirst hfne hfpre
    · have hle := length_header_le_max hmem
      have heq := hstart.eq_of_length_le (by omega)
      exact hproper heq
  rw [byteNext_of_no_candidate (by simp [hne]) hgrown, if_pos]
  rcases hcond with hlater | hlong
  · left
    obtain ⟨candidate, hfind⟩ := Option.isSome_iff_exists.mp hlater
    obtain ⟨hlt, hcand, hat, -⟩ := findCandidate_eq_some hfind
    rw [← hat] at hcand
    obtain ⟨inner, hinner⟩ := List.exists_mem_of_ne_nil _ hcand
    obtain ⟨himem, hiheader, hipre⟩ := mem_matchedCandidates.mp hinner
    by_contra hc
    rw [Bool.not_eq_true, Option.isSome_eq_false_iff, Option.isNone_iff_eq_none,
      findCandidate_eq_none] at hc
    have hempty := hc candidate.start (by rw [List.length_append]; omega)
    have : inner ∈ config.matchedCandidates (w ++ x) candidate.start := by
      refine mem_matchedCandidates.mpr ⟨himem, hiheader, ?_⟩
      rw [List.drop_append_of_le_length (by omega)]
      exact hipre.trans (List.prefix_append _ _)
    rw [hempty] at this
    cases this
  · right
    rw [List.length_append]
    omega

/-- **A scan is stable once it never shadows a header and never changes its mind on a frame.** -/
theorem stable_of_keepsFrames (hexact : ExactHeaders config.frames)
    (hshadow : NoShadowedHeader limit config.frames) (hkeeps : KeepsFrames config options limit) :
    (config.byteScanner options).Stable limit := by
  rintro w x ⟨outcome, n⟩ hlimit h
  cases outcome with
  | noise => exact noise_stable hshadow hlimit h x
  | frame parsed => exact hkeeps w x parsed n hlimit h
  | error error => exact error_stable hexact h x

/-! ### Headers that tell the definitions apart -/

theorem exactHeaders_of_prefixFree {frames : List StreamFrameDefinition}
    (h : PrefixFreeHeaders frames) : ExactHeaders frames := by
  intro a ha b hb _ hbegin
  by_cases hab : a = b
  · rw [hab]
  · exact absurd hbegin (List.Pairwise.forall h ha hb hab).1

/-- With prefix-free headers a position has at most one candidate. -/
theorem matchedCandidates_unique (h : PrefixFreeHeaders config.frames) (i : Nat)
    (hne : config.matchedCandidates w i ≠ []) :
    ∃ frame, config.matchedCandidates w i = [frame] := by
  have hpairwise : (config.matchedCandidates w i).Pairwise Incomparable := by
    unfold matchedCandidates
    split
    · exact List.Pairwise.nil
    · refine List.Pairwise.filter _ ?_
      refine ((List.perm_insertionSort _ _).pairwise_iff symm).mpr ?_
      exact List.Pairwise.filter _ h
  have hbegin : ∀ frame ∈ config.matchedCandidates w i, frame.header <+: w.drop i :=
    fun frame hframe => (mem_matchedCandidates.mp hframe).2.2
  match hm : config.matchedCandidates w i, hne with
  | [frame], _ => exact ⟨frame, rfl⟩
  | a :: b :: rest, _ =>
      rw [hm] at hpairwise hbegin
      have hab := (List.pairwise_cons.mp hpairwise).1 b (by simp)
      rcases List.prefix_or_prefix_of_prefix (hbegin a (by simp)) (hbegin b (by simp)) with h | h
      · exact absurd h hab.1
      · exact absurd h hab.2

/-- A frame with no competitor is kept. -/
theorem keepsFrames_of_prefixFree (h : PrefixFreeHeaders config.frames) :
    KeepsFrames config options limit := by
  intro w x parsed n _ hnext
  have hresult := byteNext_eq_frame.mp hnext
  have hne : config.matchedCandidates w 0 ≠ [] := by
    intro hnil
    rw [hnil] at hresult
    cases hresult
  obtain ⟨frame, hone⟩ := matchedCandidates_unique h 0 hne
  rw [byteNext_eq_frame, matchedCandidates_stable (exactHeaders_of_prefixFree h) hne x, hone]
  rw [hone] at hresult
  rw [analyzeCandidates_congr, hresult]
  intro other hother
  rw [List.mem_singleton] at hother
  subst hother
  refine analyzeFrame_append (fun hwait => ?_) x
  rw [analyzeCandidates] at hresult
  rw [hwait] at hresult
  cases hresult

end FrameStreamConfig

end ProtoScope.Scripting
