/-
The candidate search on a window.

A definition is a candidate at a position exactly when its header is a prefix of the bytes
from there on, so the search depends only on what is right of the position.  The
candidates of one position are then tried in order: the first that parses wins, otherwise
any that waits makes the scan wait, otherwise the first error stands.
-/
import ProtoScope.Proofs.Scripting.FrameAnalysis
import ProtoScope.Scripting.FrameStreamParser

namespace ProtoScope.Scripting

namespace FrameStreamConfig

variable {config : FrameStreamConfig} {w : List UInt8}

/-! ### Candidates at a position -/

theorem mem_sortedHeaderBucket {first : UInt8} {frame : StreamFrameDefinition} :
    frame ∈ config.sortedHeaderBucket first
      ↔ frame ∈ config.frames ∧ frame.header.head? = some first := by
  unfold sortedHeaderBucket
  rw [(List.perm_insertionSort _ _).mem_iff, List.mem_filter]
  simp

theorem length_header_le_max {frame : StreamFrameDefinition} (h : frame ∈ config.frames) :
    frame.header.length ≤ config.maxHeaderLength := by
  unfold maxHeaderLength
  suffices ∀ (frames : List StreamFrameDefinition) (longest : Nat),
      longest ≤ frames.foldl (fun longest frame => max longest frame.header.length) longest ∧
        ∀ frame ∈ frames, frame.header.length
          ≤ frames.foldl (fun longest frame => max longest frame.header.length) longest from
    (this config.frames 0).2 frame h
  intro frames
  induction frames with
  | nil => simp
  | cons head rest ih =>
      intro longest
      obtain ⟨hmono, hmem⟩ := ih (max longest head.header.length)
      simp only [List.foldl_cons]
      refine ⟨by omega, fun frame hframe => ?_⟩
      rcases List.mem_cons.mp hframe with rfl | hrest
      · omega
      · exact hmem frame hrest

/-- The comparison after the first byte, with the first byte settled: the header is a prefix. -/
theorem headerMatches_iff {header : List UInt8} {start : Nat} {first : UInt8}
    (hfirst : w[start]? = some first) (hhead : header.head? = some first) :
    headerMatches header w start = true ↔ header <+: w.drop start := by
  cases header with
  | nil => cases hhead
  | cons b tail =>
      obtain rfl : b = first := by simpa using hhead
      obtain ⟨hlt, hget⟩ := List.getElem?_eq_some_iff.mp hfirst
      rw [List.drop_eq_getElem_cons hlt, hget, List.cons_prefix_cons]
      simp only [headerMatches, List.isEmpty_cons, Bool.not_false, Bool.true_and, Bool.and_eq_true,
        decide_eq_true_eq, List.length_cons, Nat.add_sub_cancel, List.drop_succ_cons,
        List.drop_zero, beq_iff_eq, true_and]
      rw [List.prefix_iff_eq_take]
      constructor
      · rintro ⟨-, h⟩
        exact h.symm
      · intro h
        have hlen := congrArg List.length h
        rw [List.length_take, List.length_drop] at hlen
        exact ⟨by omega, h.symm⟩

/-- **A candidate is a definition whose header starts here.** -/
theorem mem_matchedCandidates {start : Nat} {frame : StreamFrameDefinition} :
    frame ∈ config.matchedCandidates w start
      ↔ frame ∈ config.frames ∧ frame.header ≠ [] ∧ frame.header <+: w.drop start := by
  unfold matchedCandidates
  cases hfirst : w[start]? with
  | none =>
      have hle := List.getElem?_eq_none_iff.mp hfirst
      rw [List.drop_of_length_le hle, List.prefix_nil]
      simp only [List.not_mem_nil, false_iff, not_and]
      exact fun _ hne => hne
  | some first =>
      rw [List.mem_filter, mem_sortedHeaderBucket]
      constructor
      · rintro ⟨⟨hmem, hhead⟩, hmatch⟩
        refine ⟨hmem, ?_, (headerMatches_iff hfirst hhead).mp hmatch⟩
        intro hnil
        rw [hnil] at hhead
        cases hhead
      · rintro ⟨hmem, hne, hbegin⟩
        have hhead : frame.header.head? = some first := by
          obtain ⟨tail, htail⟩ := hbegin
          have hhead := congrArg List.head? htail
          rwa [List.head?_append_of_ne_nil _ hne, List.head?_drop, hfirst] at hhead
        exact ⟨⟨hmem, hhead⟩, (headerMatches_iff hfirst hhead).mpr hbegin⟩

/-- The candidates of a position are those at the start of the bytes from there on. -/
theorem matchedCandidates_drop (i j : Nat) :
    config.matchedCandidates (w.drop i) j = config.matchedCandidates w (i + j) := by
  unfold matchedCandidates
  rw [List.getElem?_drop]
  cases hfirst : w[i + j]? with
  | none => rfl
  | some first =>
      refine List.filter_congr fun frame hframe => ?_
      have hhead := (mem_sortedHeaderBucket.mp hframe).2
      rw [Bool.eq_iff_iff, headerMatches_iff hfirst hhead,
        headerMatches_iff (by rw [List.getElem?_drop, hfirst]) hhead, List.drop_drop]

/-- More bytes change the candidates only if they complete a header. -/
theorem matchedCandidates_append {x : List UInt8} (hne : w ≠ [])
    (h : ∀ frame ∈ config.frames, frame.header <+: w ++ x → frame.header <+: w) :
    config.matchedCandidates (w ++ x) 0 = config.matchedCandidates w 0 := by
  obtain ⟨first, rest, rfl⟩ := List.exists_cons_of_ne_nil hne
  unfold matchedCandidates
  simp only [List.cons_append, List.getElem?_cons_zero]
  refine List.filter_congr fun frame hframe => ?_
  obtain ⟨hmem, hhead⟩ := mem_sortedHeaderBucket.mp hframe
  rw [Bool.eq_iff_iff, headerMatches_iff rfl hhead, headerMatches_iff rfl hhead, List.drop_zero,
    List.drop_zero]
  exact ⟨h frame hmem, fun hbegin => hbegin.trans (List.prefix_append _ _)⟩

/-! ### The first position with a candidate -/

theorem findCandidate_eq_none :
    config.findCandidate w = none ↔ ∀ i < w.length, config.matchedCandidates w i = [] := by
  unfold findCandidate
  rw [List.findSome?_eq_none_iff]
  constructor
  · intro h i hi
    have := h i (List.mem_range.mpr hi)
    cases hm : config.matchedCandidates w i with
    | nil => rfl
    | cons frame rest => simp [hm] at this
  · intro h i hi
    simp only [h i (List.mem_range.mp hi)]

/-- **The candidate found is at the first position that has one.** -/
theorem findCandidate_eq_some {candidate : CandidateMatch}
    (h : config.findCandidate w = some candidate) :
    candidate.start < w.length ∧ candidate.candidates ≠ [] ∧
      config.matchedCandidates w candidate.start = candidate.candidates ∧
      ∀ i < candidate.start, config.matchedCandidates w i = [] := by
  unfold findCandidate at h
  obtain ⟨before, start, after, hrange, hstart, hbefore⟩ := List.findSome?_eq_some_iff.mp h
  have hlen := congrArg List.length hrange
  have hget : (List.range w.length)[before.length]? = some start := by
    rw [hrange, List.getElem?_append_right (Nat.le_refl _)]
    simp
  simp only [List.length_range, List.length_append, List.length_cons] at hlen
  obtain rfl : before.length = start := by
    rw [List.getElem?_range (by omega)] at hget
    exact Option.some.inj hget
  cases hm : config.matchedCandidates w before.length with
  | nil => simp [hm] at hstart
  | cons frame rest =>
      simp only [hm, Option.some.injEq] at hstart
      subst hstart
      refine ⟨by simp only; omega, by simp, hm, fun i hi => ?_⟩
      have hmem : i ∈ before := by
        have hgeti : (before ++ before.length :: after)[i]? = some i := by
          rw [← hrange, List.getElem?_range (by simp only at hi; omega)]
        rw [List.getElem?_append_left hi] at hgeti
        exact List.mem_of_getElem? hgeti
      have hnone := hbefore i hmem
      cases hmi : config.matchedCandidates w i with
      | nil => rfl
      | cons frame' rest' => simp [hmi] at hnone

/-! ### Trying the candidates of one position -/

variable {options : StreamParseOptions} {candidates : List StreamFrameDefinition}
  {needMore : Bool} {firstError : Option StreamParseError}

/-- **The first candidate that parses wins.** -/
theorem analyzeCandidates_eq_parsed {parsed : StreamParsedFrame} {n : Nat} :
    config.analyzeCandidates w options candidates needMore firstError = .parsed parsed n
      ↔ ∃ before frame after, candidates = before ++ frame :: after ∧
          config.analyzeFrame frame w options = .ok (parsed, n) ∧
          ∀ other ∈ before, ∀ r, config.analyzeFrame other w options ≠ .ok r := by
  induction candidates generalizing needMore firstError with
  | nil =>
      constructor
      · intro h
        unfold analyzeCandidates at h
        split_ifs at h
      · rintro ⟨before, frame, after, h, -⟩
        simp at h
  | cons head rest ih =>
      unfold analyzeCandidates
      have hskip : (∀ r, config.analyzeFrame head w options ≠ .ok r) →
          ((∃ before frame after, head :: rest = before ++ frame :: after ∧
            config.analyzeFrame frame w options = .ok (parsed, n) ∧
            ∀ other ∈ before, ∀ r, config.analyzeFrame other w options ≠ .ok r)
          ↔ ∃ before frame after, rest = before ++ frame :: after ∧
            config.analyzeFrame frame w options = .ok (parsed, n) ∧
            ∀ other ∈ before, ∀ r, config.analyzeFrame other w options ≠ .ok r) := by
        intro hhead
        constructor
        · rintro ⟨before, frame, after, heq, hok, hbefore⟩
          cases before with
          | nil =>
              obtain ⟨rfl, -⟩ := List.cons.inj heq
              exact absurd hok (hhead _)
          | cons b before =>
              obtain ⟨rfl, hrest⟩ := List.cons.inj heq
              exact ⟨before, frame, after, hrest, hok,
                fun other ho => hbefore other (List.mem_cons_of_mem _ ho)⟩
        · rintro ⟨before, frame, after, rfl, hok, hbefore⟩
          refine ⟨head :: before, frame, after, rfl, hok, fun other ho => ?_⟩
          rcases List.mem_cons.mp ho with rfl | ho
          · exact hhead
          · exact hbefore other ho
      split
      · rename_i parsed' n' hok
        constructor
        · intro h
          cases h
          exact ⟨[], head, rest, rfl, hok, by simp⟩
        · rintro ⟨before, frame, after, heq, hframe, hbefore⟩
          cases before with
          | nil =>
              obtain ⟨rfl, -⟩ := List.cons.inj heq
              rw [hok] at hframe
              cases hframe
              rfl
          | cons b before =>
              obtain ⟨rfl, -⟩ := List.cons.inj heq
              exact absurd hok (hbefore _ List.mem_cons_self _)
      · rename_i herr
        rw [ih, hskip fun r hr => by rw [herr] at hr; cases hr]
      · rename_i error herr
        rw [ih, hskip fun r hr => by rw [herr] at hr; cases hr]

/-- When no candidate parses, one that waits decides. -/
theorem analyzeCandidates_eq_needMore :
    config.analyzeCandidates w options candidates needMore firstError = .needMore
      ↔ (∀ frame ∈ candidates, ∀ r, config.analyzeFrame frame w options ≠ .ok r) ∧
          (needMore = true ∨
            ∃ frame ∈ candidates, config.analyzeFrame frame w options = .error .needMore) := by
  induction candidates generalizing needMore firstError with
  | nil =>
      unfold analyzeCandidates
      cases needMore <;> simp
  | cons head rest ih =>
      unfold analyzeCandidates
      split
      · rename_i parsed n hok
        simp only [reduceCtorEq, List.mem_cons, forall_eq_or_imp, false_iff, not_and]
        intro hc
        exact absurd hok (hc.1 _)
      · rename_i herr
        rw [ih]
        simp [herr]
      · rename_i error herr
        rw [ih]
        simp [herr]

/-- **An error stands only when every candidate fails, and it is the first of theirs.** -/
theorem analyzeCandidates_eq_error {error : Option StreamParseError} :
    config.analyzeCandidates w options candidates needMore firstError = .recoverableError error
      → needMore = false ∧
        (∀ frame ∈ candidates, ∃ e,
          config.analyzeFrame frame w options = .error (.recoverableError e)) ∧
        (error = firstError ∨ firstError = none ∧ ∃ frame ∈ candidates, ∃ e, error = some e ∧
          config.analyzeFrame frame w options = .error (.recoverableError e)) ∧
        (error = none → candidates = [] ∧ firstError = none) := by
  induction candidates generalizing needMore firstError with
  | nil =>
      unfold analyzeCandidates
      intro h
      split_ifs at h with hmore
      cases h
      exact ⟨by simpa using hmore, by simp, Or.inl rfl, fun h => ⟨rfl, h⟩⟩
  | cons head rest ih =>
      unfold analyzeCandidates
      intro h
      split at h
      · cases h
      · exact absurd (ih h).1 (by simp)
      · rename_i e herr
        obtain ⟨hmore, hall, hfrom, hnone⟩ := ih h
        refine ⟨hmore, ?_, ?_, ?_⟩
        · intro frame hframe
          rcases List.mem_cons.mp hframe with rfl | hrest
          · exact ⟨e, herr⟩
          · exact hall frame hrest
        · cases firstError with
          | some first =>
              rcases hfrom with hfrom | ⟨hfrom, -⟩
              · exact Or.inl hfrom
              · cases hfrom
          | none =>
              rcases hfrom with hfrom | ⟨hfrom, -⟩
              · exact Or.inr ⟨rfl, head, List.mem_cons_self, e, hfrom, herr⟩
              · cases hfrom
        · intro hc
          have := (hnone hc).2
          cases firstError <;> simp at this

end FrameStreamConfig

end ProtoScope.Scripting
