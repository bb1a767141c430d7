/-
Whether the samples a script pushes are all handed over.

A channel and a source make a pair, the key of a request is another way to write its pair.
Merging keeps the samples of every pair in order, and a pump takes all requests of a pair or
none: once it has as many pairs as it may, it defers every new one.  So nothing is lost or
overtaken behind the queue.  What is lost is lost at its entrance, which lets no more than
one request in when the limit is zero.  The host keeps pairs together too, when it hands over
the front of its own queue.
-/
import ProtoScope.App.ScriptPlots

namespace ProtoScope.App

open ProtoScope.Data (Text)
open ProtoScope.Library
open ProtoScope.Plot

/-! ### Pairs and keys -/

/-- What a request is for: a channel and a source. -/
def pairOf (append : ScriptPlotAppendRequest) : ℕ × Text := (append.1, append.2.source)

/-- The samples that are for a pair, in order. -/
def samplesOf (pair : ℕ × Text) (requests : List ScriptPlotAppendRequest) :
    List (WaveSample Float) :=
  requests.flatMap fun append => if pairOf append = pair then append.2.samples else []

theorem samplesOf_append (pair : ℕ × Text) (first second : List ScriptPlotAppendRequest) :
    samplesOf pair (first ++ second) = samplesOf pair first ++ samplesOf pair second :=
  List.flatMap_append

theorem samplesOf_cons (pair : ℕ × Text) (append : ScriptPlotAppendRequest)
    (requests : List ScriptPlotAppendRequest) :
    samplesOf pair (append :: requests) =
      (if pairOf append = pair then append.2.samples else []) ++ samplesOf pair requests :=
  List.flatMap_cons

theorem samplesOf_singleton (pair : ℕ × Text) (append : ScriptPlotAppendRequest) :
    samplesOf pair [append] = if pairOf append = pair then append.2.samples else [] :=
  List.append_nil _

variable {requests : List ScriptPlotAppendRequest} {append : ScriptPlotAppendRequest}
  {merged : MergedRequests}

theorem samplesOf_eq_nil {pair : ℕ × Text}
    (h : ∀ append ∈ requests, pairOf append = pair → append.2.samples = []) :
    samplesOf pair requests = [] := by
  refine List.flatMap_eq_nil_iff.mpr fun append hmem => ?_
  split
  · exact h append hmem ‹_›
  · rfl

/-- The digits of the channel end where the separator stands. -/
theorem key_injective {first second : ScriptPlotAppendRequest}
    (h : requestKey first = requestKey second) : pairOf first = pairOf second := by
  have hdigits (n : ℕ) (source : Text) : (Decimal.render n ++ unitSeparator :: source).takeWhile
      (fun byte => decide (Decimal.IsDigit byte)) = Decimal.render n := by
    rw [List.takeWhile_append_of_pos fun byte hbyte =>
      decide_eq_true (Decimal.isDigit_of_mem_render hbyte)]
    exact List.append_nil _
  unfold requestKey scriptPlotAppendKey at h
  have hrender : Decimal.render first.1 = Decimal.render second.1 := by
    rw [← hdigits first.1 first.2.source, h, hdigits]
  have hchannel : first.1 = second.1 := by
    have hparse := Decimal.parse_render first.1
    rw [hrender, Decimal.parse_render] at hparse
    exact (Option.some.inj hparse).symm
  rw [hrender] at h
  have hsource := (List.cons.inj (List.append_cancel_left h)).2
  exact Prod.ext hchannel hsource

theorem key_eq_iff {first second : ScriptPlotAppendRequest} :
    requestKey first = requestKey second ↔ pairOf first = pairOf second := by
  refine ⟨key_injective, fun h => ?_⟩
  unfold requestKey
  obtain ⟨hchannel, hsource⟩ := Prod.mk.inj h
  rw [hchannel, hsource]

/-! ### Merging -/

/-- Merging without positions: into the first request of the pair, or behind all. -/
def mergeInto : List ScriptPlotAppendRequest → ScriptPlotAppendRequest →
    List ScriptPlotAppendRequest
  | [], append => [append]
  | request :: requests, append =>
    if pairOf request = pairOf append then mergePlotAppendSamples append request :: requests
    else request :: mergeInto requests append

def pairs (requests : List ScriptPlotAppendRequest) : List (ℕ × Text) := requests.map pairOf

/-- The positions are those of the keys, and every pair has one request. -/
structure MergedRequests.Aligned (merged : MergedRequests) : Prop where
  indexes : merged.indexes = (merged.requests.map requestKey).zipIdx
  nodup : (pairs merged.requests).Nodup

theorem lookup_some (requests : List ScriptPlotAppendRequest) {start position : ℕ}
    (h : ((requests.map requestKey).zipIdx start).lookup (requestKey append) = some position) :
    start ≤ position ∧ pairOf append ∈ pairs requests ∧
      requests.modify (position - start) (mergePlotAppendSamples append) =
        mergeInto requests append := by
  induction requests generalizing start with
  | nil => cases h
  | cons request requests ih =>
    rw [List.map_cons, List.zipIdx_cons, List.lookup_cons] at h
    unfold mergeInto
    by_cases hpair : pairOf request = pairOf append
    · rw [beq_iff_eq.mpr (key_eq_iff.mpr hpair.symm)] at h
      obtain rfl := Option.some.inj h
      rw [if_pos hpair, Nat.sub_self]
      exact ⟨Nat.le_refl _, hpair ▸ List.mem_cons_self, rfl⟩
    · have hkey : (requestKey append == requestKey request) = false :=
        beq_eq_false_iff_ne.mpr fun heq => hpair (key_injective heq).symm
      rw [hkey] at h
      obtain ⟨hle, hmem, hmodify⟩ := ih h
      refine ⟨Nat.le_of_succ_le hle, List.mem_cons_of_mem _ hmem, ?_⟩
      rw [if_neg hpair, show position - start = (position - (start + 1)) + 1 by omega,
        List.modify_succ_cons, hmodify]

theorem lookup_none (requests : List ScriptPlotAppendRequest) {start : ℕ}
    (h : ((requests.map requestKey).zipIdx start).lookup (requestKey append) = none) :
    pairOf append ∉ pairs requests ∧ mergeInto requests append = requests ++ [append] := by
  induction requests generalizing start with
  | nil => exact ⟨List.not_mem_nil, rfl⟩
  | cons request requests ih =>
    rw [List.map_cons, List.zipIdx_cons, List.lookup_cons] at h
    unfold mergeInto
    by_cases hpair : pairOf request = pairOf append
    · rw [beq_iff_eq.mpr (key_eq_iff.mpr hpair.symm)] at h
      cases h
    · have hkey : (requestKey append == requestKey request) = false :=
        beq_eq_false_iff_ne.mpr fun heq => hpair (key_injective heq).symm
      rw [hkey] at h
      obtain ⟨hmem, hmerge⟩ := ih h
      rw [if_neg hpair, hmerge]
      refine ⟨fun hin => ?_, rfl⟩
      obtain heq | hin := List.mem_cons.mp hin
      · exact hpair heq.symm
      · exact hmem hin

theorem pairOf_merge (source target : ScriptPlotAppendRequest) :
    pairOf (mergePlotAppendSamples source target) = pairOf target := rfl

/-- A pair that is there stays where it is. -/
theorem pairs_mergeInto (h : pairOf append ∈ pairs requests) :
    pairs (mergeInto requests append) = pairs requests := by
  induction requests with
  | nil => cases h
  | cons request requests ih =>
    unfold mergeInto
    by_cases hpair : pairOf request = pairOf append
    · rw [if_pos hpair]
      rfl
    · rw [if_neg hpair]
      obtain heq | hmem := List.mem_cons.mp h
      · exact absurd heq.symm hpair
      · exact congrArg (pairOf request :: ·) (ih hmem)

/-- Keys are pairs written differently. -/
theorem keys_eq_of_pairs_eq {first second : List ScriptPlotAppendRequest}
    (h : pairs first = pairs second) : first.map requestKey = second.map requestKey := by
  have hkey (requests : List ScriptPlotAppendRequest) : requests.map requestKey =
      (pairs requests).map fun pair => scriptPlotAppendKey pair.1 pair.2 := by
    unfold pairs
    rw [List.map_map]
    rfl
  rw [hkey, hkey, h]

/-- Merging keeps the samples of every pair, in order. -/
theorem samplesOf_mergeInto (h : (pairs requests).Nodup) (append : ScriptPlotAppendRequest)
    (pair : ℕ × Text) :
    samplesOf pair (mergeInto requests append) =
      samplesOf pair requests ++ samplesOf pair [append] := by
  induction requests with
  | nil => rfl
  | cons request requests ih =>
    obtain ⟨hnot, hrest⟩ := List.nodup_cons.mp h
    unfold mergeInto
    rw [samplesOf_singleton, samplesOf_cons pair request requests]
    by_cases hpair : pairOf request = pairOf append
    · rw [if_pos hpair, samplesOf_cons, pairOf_merge]
      by_cases hthis : pairOf request = pair
      · have hnone : samplesOf pair requests = [] := by
          refine samplesOf_eq_nil fun other hmem heq => ?_
          exact absurd (List.mem_map.mpr ⟨other, hmem, heq.trans hthis.symm⟩) hnot
        rw [if_pos hthis, if_pos (hpair.symm.trans hthis), if_pos hthis, hnone, List.append_nil,
          List.append_nil]
        rfl
      · rw [if_neg hthis, if_neg fun heq => hthis (hpair.trans heq), if_neg hthis,
          List.append_nil]
    · rw [if_neg hpair, samplesOf_cons, ih hrest, samplesOf_singleton, List.append_assoc]

/-- `selectOrMerge` merges, and keeps its positions right. -/
theorem selectOrMerge_spec (h : merged.Aligned) (append : ScriptPlotAppendRequest) :
    (merged.selectOrMerge append).requests = mergeInto merged.requests append ∧
      (merged.selectOrMerge append).Aligned := by
  unfold MergedRequests.selectOrMerge
  rw [h.indexes]
  cases hlookup : (merged.requests.map requestKey).zipIdx.lookup (requestKey append) with
  | some position =>
    obtain ⟨-, hmem, hmodify⟩ := lookup_some merged.requests hlookup
    rw [Nat.sub_zero] at hmodify
    have hpairs := pairs_mergeInto hmem
    refine ⟨hmodify, ?_, ?_⟩
    · dsimp only
      rw [hmodify, keys_eq_of_pairs_eq hpairs]
    · dsimp only
      rw [hmodify, hpairs]
      exact h.nodup
  | none =>
    obtain ⟨hmem, hmerge⟩ := lookup_none merged.requests hlookup
    refine ⟨hmerge.symm, ?_, ?_⟩
    · dsimp only
      rw [List.map_append, List.zipIdx_append, List.length_map, Nat.zero_add]
      rfl
    · dsimp only
      unfold pairs
      rw [List.map_append]
      refine List.nodup_append.mpr ⟨h.nodup, List.nodup_singleton _, ?_⟩
      intro pair hpair other hother heq
      rw [List.map_cons, List.map_nil, List.mem_singleton] at hother
      exact hmem (hother ▸ heq ▸ hpair)

theorem aligned_empty : MergedRequests.Aligned {} := ⟨rfl, List.nodup_nil⟩

theorem selectOrMerge_samples (h : merged.Aligned) (append : ScriptPlotAppendRequest)
    (pair : ℕ × Text) :
    samplesOf pair (merged.selectOrMerge append).requests =
      samplesOf pair merged.requests ++ samplesOf pair [append] := by
  rw [(selectOrMerge_spec h append).1]
  exact samplesOf_mergeInto h.nodup append pair

theorem pairs_subset_mergeInto {pair : ℕ × Text} (h : pair ∈ pairs (mergeInto requests append)) :
    pair ∈ pairs requests ∨ pair = pairOf append := by
  induction requests with
  | nil =>
    obtain rfl := List.mem_singleton.mp h
    exact .inr rfl
  | cons request requests ih =>
    unfold mergeInto at h
    split at h
    · exact .inl h
    · obtain rfl | hmem := List.mem_cons.mp h
      · exact .inl List.mem_cons_self
      · obtain hmem | rfl := ih hmem
        · exact .inl (List.mem_cons_of_mem _ hmem)
        · exact .inr rfl

/-! ### One pump -/

/-- What a drain has selected and deferred of the requests it has seen. -/
structure Drained (state : ScriptPlotAppendDrainState) (seen : List ScriptPlotAppendRequest) :
    Prop where
  aligned : state.selected.Aligned
  samples : ∀ pair, samplesOf pair state.selected.requests ++ samplesOf pair state.deferred =
    samplesOf pair seen
  /-- no pair is on both sides -/
  apart : ∀ append ∈ state.deferred, pairOf append ∉ pairs state.selected.requests
  /-- once a pair is deferred no new one is selected -/
  full : state.deferred ≠ [] → state.maxSelectedKeys ≤ state.selected.requests.length

theorem Aligned.length (h : merged.Aligned) : merged.indexes.length = merged.requests.length := by
  rw [h.indexes, List.length_zipIdx, List.length_map]

theorem Aligned.lookup_isNone (h : merged.Aligned) (append : ScriptPlotAppendRequest) :
    (merged.indexes.lookup (requestKey append)).isNone = true ↔
      pairOf append ∉ pairs merged.requests := by
  rw [h.indexes]
  cases hlookup : (merged.requests.map requestKey).zipIdx.lookup (requestKey append) with
  | some position =>
    obtain ⟨-, hmem, -⟩ := lookup_some merged.requests hlookup
    exact ⟨fun hfalse => Bool.noConfusion hfalse, fun hnot => absurd hmem hnot⟩
  | none => exact ⟨fun _ => (lookup_none merged.requests hlookup).1, fun _ => rfl⟩

theorem length_mergeInto (h : pairOf append ∈ pairs requests) :
    (mergeInto requests append).length = requests.length := by
  have hpairs := congrArg List.length (pairs_mergeInto h)
  unfold pairs at hpairs
  rwa [List.length_map, List.length_map] at hpairs

theorem candidate_drained {state : ScriptPlotAppendDrainState}
    {seen : List ScriptPlotAppendRequest} (h : Drained state seen)
    (append : ScriptPlotAppendRequest) :
    Drained (drainScriptPlotAppendCandidate state append) (seen ++ [append]) := by
  have hnone := Aligned.lookup_isNone h.aligned append
  have hlength := Aligned.length h.aligned
  unfold drainScriptPlotAppendCandidate
  split
  · rename_i hdefer
    unfold shouldDeferNewScriptPlotAppend at hdefer
    rw [Bool.and_eq_true, decide_eq_true_eq] at hdefer
    refine ⟨h.aligned, ?_, ?_, ?_⟩
    · intro pair
      rw [samplesOf_append, ← List.append_assoc, h.samples pair, ← samplesOf_append]
    · intro other hmem
      obtain hmem | hmem := List.mem_append.mp hmem
      · exact h.apart other hmem
      · rw [List.mem_singleton.mp hmem]
        exact hnone.mp hdefer.1
    · intro _
      rw [← hlength]
      exact hdefer.2
  · rename_i hselect
    obtain ⟨hrequests, haligned⟩ := selectOrMerge_spec h.aligned append
    by_cases hpair : pairOf append ∈ pairs state.selected.requests
    · -- merged: nothing that was deferred is of this pair
      refine ⟨haligned, ?_, ?_, ?_⟩
      · intro pair
        show samplesOf pair (state.selected.selectOrMerge append).requests ++ _ = _
        rw [selectOrMerge_samples h.aligned, samplesOf_append, ← h.samples pair]
        by_cases hthis : pairOf append = pair
        · have hdeferred : samplesOf pair state.deferred = [] := by
            refine samplesOf_eq_nil fun other hmem heq => ?_
            exact absurd (heq.trans hthis.symm ▸ hpair) (h.apart other hmem)
          rw [hdeferred, List.append_nil, List.append_nil]
        · rw [samplesOf_singleton, if_neg hthis, List.append_nil, List.append_nil]
      · intro other hmem
        show pairOf other ∉ pairs (state.selected.selectOrMerge append).requests
        rw [hrequests, pairs_mergeInto hpair]
        exact h.apart other hmem
      · intro hdeferred
        show _ ≤ (state.selected.selectOrMerge append).requests.length
        rw [hrequests, length_mergeInto hpair]
        exact h.full hdeferred
    · -- a new pair: nothing has been deferred yet
      have hempty : state.deferred = [] := by
        refine Classical.byContradiction fun hdeferred => hselect ?_
        unfold shouldDeferNewScriptPlotAppend
        rw [Bool.and_eq_true, decide_eq_true_eq, hlength]
        exact ⟨hnone.mpr hpair, h.full hdeferred⟩
      have hsamples (pair : ℕ × Text) : samplesOf pair state.selected.requests =
          samplesOf pair seen := by
        have := h.samples pair
        rw [hempty] at this
        exact (List.append_nil _).symm.trans this
      refine ⟨haligned, ?_, ?_, ?_⟩
      · intro pair
        show samplesOf pair (state.selected.selectOrMerge append).requests ++
          samplesOf pair state.deferred = _
        rw [selectOrMerge_samples h.aligned, samplesOf_append, hsamples, hempty]
        exact List.append_nil _
      · intro other hmem
        rw [show state.deferred = [] from hempty] at hmem
        cases hmem
      · intro hdeferred
        exact absurd hempty hdeferred

theorem foldl_drained {state : ScriptPlotAppendDrainState} {seen : List ScriptPlotAppendRequest}
    (h : Drained state seen) (pending : List ScriptPlotAppendRequest) :
    Drained (pending.foldl drainScriptPlotAppendCandidate state) (seen ++ pending) := by
  induction pending generalizing state seen with
  | nil =>
    rw [List.append_nil]
    exact h
  | cons append pending ih =>
    have hstep := ih (candidate_drained h append)
    rw [List.append_assoc] at hstep
    exact hstep

theorem drained_initial (maxPlotAppends : ℕ) :
    Drained { maxSelectedKeys := maxPlotAppends } [] :=
  ⟨aligned_empty, fun _ => rfl, (fun _ h => by cases h), fun h => absurd rfl h⟩

/-- A pump splits the queue by pairs and keeps the samples of each in order. -/
theorem drain_spec (maxPlotAppends : ℕ) (pending : List ScriptPlotAppendRequest) :
    Drained (pending.foldl drainScriptPlotAppendCandidate { maxSelectedKeys := maxPlotAppends })
      pending :=
  foldl_drained (drained_initial maxPlotAppends) pending

/-- Each request seen adds at most one to those deferred. -/
theorem foldl_deferred_length (state : ScriptPlotAppendDrainState)
    (pending : List ScriptPlotAppendRequest) :
    (pending.foldl drainScriptPlotAppendCandidate state).deferred.length ≤
      state.deferred.length + pending.length := by
  induction pending generalizing state with
  | nil => exact Nat.le_refl _
  | cons append pending ih =>
    refine Nat.le_trans (ih (drainScriptPlotAppendCandidate state append)) ?_
    have hone : (drainScriptPlotAppendCandidate state append).deferred.length ≤
        state.deferred.length + 1 := by
      unfold drainScriptPlotAppendCandidate
      split
      · exact Nat.le_of_eq List.length_append
      · exact Nat.le_succ _
    rw [List.length_cons]
    omega

/-- A pump with a budget takes the first request, whatever else it defers. -/
theorem drain_progress {maxPlotAppends : ℕ} (hbudget : 1 ≤ maxPlotAppends)
    (append : ScriptPlotAppendRequest) (pending : List ScriptPlotAppendRequest) :
    (drainScriptPlotAppendsForPump maxPlotAppends (append :: pending)).2.length ≤
      pending.length := by
  have hfirst : drainScriptPlotAppendCandidate { maxSelectedKeys := maxPlotAppends } append =
      { selected := MergedRequests.selectOrMerge {} append
        maxSelectedKeys := maxPlotAppends } := by
    unfold drainScriptPlotAppendCandidate
    rw [if_neg]
    unfold shouldDeferNewScriptPlotAppend
    rw [Bool.and_eq_true, decide_eq_true_eq]
    rintro ⟨-, hfull⟩
    exact absurd (Nat.le_trans hbudget hfull) (Nat.not_succ_le_zero 0)
  show (pending.foldl drainScriptPlotAppendCandidate
    (drainScriptPlotAppendCandidate _ append)).deferred.length ≤ _
  rw [hfirst]
  exact Nat.le_trans (foldl_deferred_length _ pending) (Nat.le_of_eq (Nat.zero_add _))

/-- Merging a second time, without the empty requests, changes no pair's samples. -/
theorem foldl_mergeNonEmpty (h : merged.Aligned) (requests : List ScriptPlotAppendRequest) :
    (∀ pair, samplesOf pair (requests.foldl mergeNonEmpty merged).requests =
        samplesOf pair merged.requests ++ samplesOf pair requests) ∧
      ∀ pair ∈ pairs (requests.foldl mergeNonEmpty merged).requests,
        pair ∈ pairs merged.requests ∨ pair ∈ pairs requests := by
  induction requests generalizing merged with
  | nil => exact ⟨fun _ => (List.append_nil _).symm, fun _ hmem => .inl hmem⟩
  | cons append requests ih =>
    have hstep : (mergeNonEmpty merged append).Aligned ∧
        (∀ pair, samplesOf pair (mergeNonEmpty merged append).requests =
          samplesOf pair merged.requests ++ samplesOf pair [append]) ∧
        ∀ pair ∈ pairs (mergeNonEmpty merged append).requests,
          pair ∈ pairs merged.requests ∨ pair = pairOf append := by
      unfold mergeNonEmpty
      split
      · rename_i hempty
        refine ⟨h, fun pair => ?_, fun _ hmem => .inl hmem⟩
        rw [samplesOf_singleton, hempty, ite_self, List.append_nil]
      · obtain ⟨hrequests, haligned⟩ := selectOrMerge_spec h append
        refine ⟨haligned, selectOrMerge_samples h append, fun pair hmem => ?_⟩
        rw [hrequests] at hmem
        exact pairs_subset_mergeInto hmem
    obtain ⟨haligned, hsamples, hpairs⟩ := hstep
    obtain ⟨hsamples', hpairs'⟩ := ih haligned
    constructor
    · intro pair
      rw [List.foldl_cons, hsamples', hsamples, List.append_assoc, ← samplesOf_append]
      rfl
    · intro pair hmem
      obtain hmem | hmem := hpairs' pair hmem
      · obtain hmem | rfl := hpairs pair hmem
        · exact .inl hmem
        · exact .inr List.mem_cons_self
      · exact .inr (List.mem_cons_of_mem _ hmem)

theorem mergeNonEmpty_spec (requests : List ScriptPlotAppendRequest) :
    (∀ pair, samplesOf pair (mergeNonEmptyScriptPlotAppends requests) =
        samplesOf pair requests) ∧
      ∀ pair ∈ pairs (mergeNonEmptyScriptPlotAppends requests), pair ∈ pairs requests := by
  obtain ⟨hsamples, hpairs⟩ := foldl_mergeNonEmpty aligned_empty requests
  refine ⟨hsamples, fun pair hmem => ?_⟩
  obtain hnone | hmem := hpairs pair hmem
  · cases hnone
  · exact hmem

/-! ### Batches and pumps -/

/-- The queue, with all requests that were handed to `OscilloscopeBuffer::append`. -/
structure PlotQueue where
  pending : List ScriptPlotAppendRequest := []
  handed : List ScriptPlotAppendRequest := []

inductive PlotQueueStep where
  | enqueue (appends : List ScriptPlotAppendRequest)
  | pump (maxPlotAppends : ℕ)

namespace PlotQueue

/-- What a pump hands over. -/
def handsOver (queue : PlotQueue) (maxPlotAppends : ℕ) : List ScriptPlotAppendRequest :=
  mergeNonEmptyScriptPlotAppends (drainScriptPlotAppendsForPump maxPlotAppends queue.pending).1

def step (limit : ℕ) (queue : PlotQueue) : PlotQueueStep → PlotQueue
  | .enqueue appends =>
    { queue with pending := enqueueScriptPlotAppends limit queue.pending appends }
  | .pump maxPlotAppends =>
    { pending := (drainScriptPlotAppendsForPump maxPlotAppends queue.pending).2
      handed := queue.handed ++ queue.handsOver maxPlotAppends }

def run (limit : ℕ) (queue : PlotQueue) (steps : List PlotQueueStep) : PlotQueue :=
  steps.foldl (step limit) queue

/-- The requests that were pushed, in order. -/
def pushed : List PlotQueueStep → List ScriptPlotAppendRequest
  | [] => []
  | .enqueue appends :: steps => appends ++ pushed steps
  | .pump _ :: steps => pushed steps

/-- The samples of a pair that are handed over or still in the queue. -/
def kept (queue : PlotQueue) (pair : ℕ × Text) : List (WaveSample Float) :=
  samplesOf pair queue.handed ++ samplesOf pair queue.pending

/-- No pump hands over a request of a pair while another of that pair stays behind. -/
def HandsOverInOrder (limit : ℕ) : PlotQueue → List PlotQueueStep → Prop
  | _, [] => True
  | queue, step :: steps =>
    (∀ maxPlotAppends, step = .pump maxPlotAppends →
      ∀ append ∈ queue.handsOver maxPlotAppends, ∀ left ∈ (queue.step limit step).pending,
        pairOf append ≠ pairOf left) ∧
      HandsOverInOrder limit (queue.step limit step) steps

/-- What the program owes the script after a run: of each pair the samples that were handed
over, then those in the queue, are those that were pushed; each pump keeps the order; and
as many pumps as there are requests in the queue hand over everything. -/
structure Delivered (limit : ℕ) (steps : List PlotQueueStep) : Prop where
  kept : ∀ pair, (run limit {} steps).kept pair = samplesOf pair (pushed steps)
  inOrder : HandsOverInOrder limit {} steps
  drained : ∀ budgets : List ℕ, (∀ budget ∈ budgets, 1 ≤ budget) →
    (run limit {} steps).pending.length ≤ budgets.length →
      ∀ pair, samplesOf pair (run limit {} (steps ++ budgets.map .pump)).handed =
        samplesOf pair (pushed steps)

/-- The pending requests stay within the limit. -/
def WithinLimit (limit : ℕ) : PlotQueue → List PlotQueueStep → Prop
  | _, [] => True
  | queue, .enqueue appends :: steps =>
    queue.pending.length + appends.length ≤ limit ∧
      WithinLimit limit (queue.step limit (.enqueue appends)) steps
  | queue, .pump maxPlotAppends :: steps =>
    WithinLimit limit (queue.step limit (.pump maxPlotAppends)) steps

/-- What finds no room in the queue. -/
def refused (limit : ℕ) (queue : PlotQueue) (appends : List ScriptPlotAppendRequest) :
    List ScriptPlotAppendRequest :=
  appends.drop (max limit 1 - queue.pending.length)

/-- No request with samples comes when the queue is at its hard limit. -/
def NoneRefused (limit : ℕ) : PlotQueue → List PlotQueueStep → Prop
  | _, [] => True
  | queue, .enqueue appends :: steps =>
    (∀ append ∈ queue.refused limit appends, append.2.samples = []) ∧
      NoneRefused limit (queue.step limit (.enqueue appends)) steps
  | queue, .pump maxPlotAppends :: steps =>
    NoneRefused limit (queue.step limit (.pump maxPlotAppends)) steps

section Step

variable {limit : ℕ} {queue : PlotQueue}

/-- Of a pair, what is enqueued is kept, but for what is refused. -/
theorem enqueue_kept (appends : List ScriptPlotAppendRequest) (pair : ℕ × Text) :
    (queue.step limit (.enqueue appends)).kept pair ++
        samplesOf pair (queue.refused limit appends) =
      queue.kept pair ++ samplesOf pair appends := by
  show samplesOf pair queue.handed ++ samplesOf pair (enqueueScriptPlotAppends limit queue.pending
    appends) ++ _ = samplesOf pair queue.handed ++ samplesOf pair queue.pending ++ _
  unfold enqueueScriptPlotAppends refused
  rw [samplesOf_append, List.append_assoc, List.append_assoc, ← samplesOf_append,
    List.take_append_drop, List.append_assoc]

theorem handsOver_samples (maxPlotAppends : ℕ) (pair : ℕ × Text) :
    samplesOf pair (queue.handsOver maxPlotAppends) =
      samplesOf pair (drainScriptPlotAppendsForPump maxPlotAppends queue.pending).1 :=
  (mergeNonEmpty_spec _).1 pair

/-- A pump moves samples from the queue, in order. -/
theorem pump_kept (maxPlotAppends : ℕ) (pair : ℕ × Text) :
    (queue.step limit (.pump maxPlotAppends)).kept pair = queue.kept pair := by
  show samplesOf pair (queue.handed ++ queue.handsOver maxPlotAppends) ++ samplesOf pair _ =
    samplesOf pair queue.handed ++ samplesOf pair queue.pending
  rw [samplesOf_append, handsOver_samples, List.append_assoc]
  exact congrArg _ ((drain_spec maxPlotAppends queue.pending).samples pair)

theorem pump_inOrder (maxPlotAppends : ℕ) {append left : ScriptPlotAppendRequest}
    (happend : append ∈ queue.handsOver maxPlotAppends)
    (hleft : left ∈ (queue.step limit (.pump maxPlotAppends)).pending) :
    pairOf append ≠ pairOf left := by
  intro heq
  have hselected := (mergeNonEmpty_spec _).2 (pairOf append) (List.mem_map.mpr ⟨append, happend, rfl⟩)
  rw [heq] at hselected
  exact (drain_spec maxPlotAppends queue.pending).apart left hleft hselected

end Step

theorem run_inOrder (limit : ℕ) (queue : PlotQueue) (steps : List PlotQueueStep) :
    HandsOverInOrder limit queue steps := by
  induction steps generalizing queue with
  | nil => trivial
  | cons step steps ih =>
    refine ⟨?_, ih (queue.step limit step)⟩
    rintro maxPlotAppends rfl append happend left hleft
    exact pump_inOrder maxPlotAppends happend hleft

/-- As long as none is refused, every sample pushed is kept. -/
theorem run_kept {limit : ℕ} {queue : PlotQueue} (steps : List PlotQueueStep)
    (hnone : NoneRefused limit queue steps) (pair : ℕ × Text) :
    (queue.run limit steps).kept pair = queue.kept pair ++ samplesOf pair (pushed steps) := by
  induction steps generalizing queue with
  | nil => exact (List.append_nil _).symm
  | cons step steps ih =>
    cases step with
    | enqueue appends =>
      have hrefused : samplesOf pair (queue.refused limit appends) = [] :=
        samplesOf_eq_nil fun append hmem _ => hnone.1 append hmem
      have hstep := @enqueue_kept limit queue appends pair
      rw [hrefused, List.append_nil] at hstep
      refine (ih hnone.2).trans ?_
      rw [hstep, List.append_assoc, ← samplesOf_append]
      rfl
    | pump maxPlotAppends =>
      exact (ih hnone).trans (congrArg (· ++ _) (pump_kept maxPlotAppends pair))

/-- How many samples of a pair a run refuses. -/
def refusedCount (limit : ℕ) (pair : ℕ × Text) : PlotQueue → List PlotQueueStep → ℕ
  | _, [] => 0
  | queue, .enqueue appends :: steps =>
    (samplesOf pair (queue.refused limit appends)).length +
      refusedCount limit pair (queue.step limit (.enqueue appends)) steps
  | queue, .pump maxPlotAppends :: steps =>
    refusedCount limit pair (queue.step limit (.pump maxPlotAppends)) steps

/-- Every sample is kept or refused. -/
theorem run_count (limit : ℕ) (queue : PlotQueue) (steps : List PlotQueueStep)
    (pair : ℕ × Text) :
    ((queue.run limit steps).kept pair).length + refusedCount limit pair queue steps =
      (queue.kept pair).length + (samplesOf pair (pushed steps)).length := by
  induction steps generalizing queue with
  | nil => rfl
  | cons step steps ih =>
    have hrest := ih (queue.step limit step)
    cases step with
    | enqueue appends =>
      have hstep := congrArg List.length
        (@enqueue_kept limit queue appends pair)
      rw [List.length_append, List.length_append] at hstep
      show _ + (_ + refusedCount limit pair _ steps) =
        _ + (samplesOf pair (appends ++ pushed steps)).length
      rw [samplesOf_append, List.length_append]
      replace hrest : ((queue.run limit (.enqueue appends :: steps)).kept pair).length + _ = _ :=
        hrest
      omega
    | pump maxPlotAppends =>
      rw [pump_kept maxPlotAppends pair] at hrest
      exact hrest

theorem noneRefused_of_count (limit : ℕ) (queue : PlotQueue) (steps : List PlotQueueStep)
    (h : ∀ pair, refusedCount limit pair queue steps = 0) : NoneRefused limit queue steps := by
  induction steps generalizing queue with
  | nil => trivial
  | cons step steps ih =>
    cases step with
    | enqueue appends =>
      constructor
      · intro append hmem
        have hzero := List.eq_nil_of_length_eq_zero (Nat.add_eq_zero_iff.mp (h (pairOf append))).1
        have happend := List.flatMap_eq_nil_iff.mp hzero append hmem
        rwa [if_pos rfl] at happend
      · exact ih _ fun pair => (Nat.add_eq_zero_iff.mp (h pair)).2
    | pump maxPlotAppends => exact ih _ h

/-- Within a positive limit nothing is refused. -/
theorem noneRefused_of_within {limit : ℕ} {queue : PlotQueue} (steps : List PlotQueueStep)
    (hlimit : 0 < limit) (h : WithinLimit limit queue steps) : NoneRefused limit queue steps := by
  induction steps generalizing queue with
  | nil => trivial
  | cons step steps ih =>
    cases step with
    | enqueue appends =>
      refine ⟨?_, ih h.2⟩
      intro append hmem
      have hfits := h.1
      have hdrop : queue.refused limit appends = [] := by
        refine List.drop_eq_nil_of_le ?_
        omega
      rw [hdrop] at hmem
      cases hmem
    | pump maxPlotAppends => exact ih h

/-- As many pumps with a budget as there are requests empty the queue. -/
theorem pumps_empty (limit : ℕ) {queue : PlotQueue} (budgets : List ℕ)
    (hbudgets : ∀ budget ∈ budgets, 1 ≤ budget) (h : queue.pending.length ≤ budgets.length) :
    (queue.run limit (budgets.map .pump)).pending = [] := by
  induction budgets generalizing queue with
  | nil => exact List.eq_nil_of_length_eq_zero (Nat.le_zero.mp h)
  | cons budget budgets ih =>
    refine @ih (queue.step limit (.pump budget))
      (fun other hmem => hbudgets other (List.mem_cons_of_mem _ hmem)) ?_
    show (drainScriptPlotAppendsForPump budget queue.pending).2.length ≤ _
    cases hpending : queue.pending with
    | nil => exact Nat.zero_le _
    | cons append pending =>
      rw [hpending, List.length_cons, List.length_cons] at h
      exact Nat.le_trans (drain_progress (hbudgets budget List.mem_cons_self) append pending)
        (Nat.le_of_succ_le_succ h)

theorem pushed_pumps (steps : List PlotQueueStep) (budgets : List ℕ) :
    pushed (steps ++ budgets.map .pump) = pushed steps := by
  induction steps with
  | nil =>
    induction budgets with
    | nil => rfl
    | cons budget budgets ih => exact ih
  | cons step steps ih =>
    cases step with
    | enqueue appends => exact congrArg (appends ++ ·) ih
    | pump maxPlotAppends => exact ih

theorem noneRefused_pumps {limit : ℕ} {queue : PlotQueue} (steps : List PlotQueueStep)
    (budgets : List ℕ) (h : NoneRefused limit queue steps) :
    NoneRefused limit queue (steps ++ budgets.map .pump) := by
  induction steps generalizing queue with
  | nil =>
    induction budgets generalizing queue with
    | nil => trivial
    | cons budget budgets ih => exact @ih (queue.step limit (.pump budget)) trivial
  | cons step steps ih =>
    cases step with
    | enqueue appends => exact ⟨h.1, ih h.2⟩
    | pump maxPlotAppends => exact @ih (queue.step limit (.pump maxPlotAppends)) h

/-- **Every sample that is pushed is delivered, in order and once, exactly when the limit is
positive or no request with samples finds the queue at its hard limit.**  A limit of zero,
which elsewhere is none, leaves room for one request. -/
theorem plot_delivery (limit : ℕ) (steps : List PlotQueueStep)
    (hwithin : 0 < limit → WithinLimit limit {} steps) :
    Delivered limit steps ↔ 0 < limit ∨ NoneRefused limit {} steps := by
  constructor
  · intro h
    refine .inr (noneRefused_of_count limit {} steps fun pair => ?_)
    have hcount := run_count limit {} steps pair
    rw [h.kept pair] at hcount
    replace hcount : _ + _ = 0 + _ := hcount
    omega
  · intro h
    have hnone : NoneRefused limit {} steps :=
      h.elim (fun hlimit => noneRefused_of_within steps hlimit (hwithin hlimit)) id
    refine ⟨fun pair => run_kept steps hnone pair, run_inOrder limit {} steps, ?_⟩
    intro budgets hbudgets hlength pair
    have hkept := run_kept (steps ++ budgets.map .pump) (noneRefused_pumps steps budgets hnone) pair
    rw [pushed_pumps] at hkept
    have hempty : (run limit {} (steps ++ budgets.map .pump)).pending = [] := by
      unfold run
      rw [List.foldl_append]
      exact pumps_empty limit budgets hbudgets hlength
    unfold kept at hkept
    rw [hempty] at hkept
    exact (List.append_nil _).symm.trans hkept

/-- A request of one sample. -/
def oneSample (channel : ℕ) : ScriptPlotAppendRequest :=
  (channel, { samples := [⟨Float.ofBits 0, Float.ofBits 0⟩] })

theorem plot_delivery_two :
    Delivered 2 [.enqueue [oneSample 0, oneSample 1], .pump 1, .pump 1] ↔
      0 < 2 ∨ NoneRefused 2 {} [.enqueue [oneSample 0, oneSample 1], .pump 1, .pump 1] :=
  plot_delivery 2 [.enqueue [oneSample 0, oneSample 1], .pump 1, .pump 1]
    fun _ => ⟨by decide, trivial⟩

/-- Without a limit the second request of a batch is lost. -/
theorem unlimited_loses :
    ¬ ∀ (limit : ℕ) (steps : List PlotQueueStep), (0 < limit → WithinLimit limit {} steps) →
      Delivered limit steps := by
  intro hall
  have h := hall 0 [.enqueue [oneSample 0, oneSample 1]] fun hlimit => absurd hlimit (by decide)
  have hkept := congrArg List.length (h.kept (1, []))
  exact absurd hkept (by decide)

end PlotQueue

/-! ### The queue of the host -/

/-- A front of the queue that is long enough and tears no channel and source apart. -/
structure WholeFront (maxRequests : ℕ) (queue front rest : List ScriptPlotAppendRequest) :
    Prop where
  queue_eq : front ++ rest = queue
  enough : min maxRequests queue.length ≤ front.length
  apart : ∀ append ∈ front, ∀ later ∈ rest, pairOf append ≠ pairOf later

theorem separates_iff {queue : List ScriptPlotAppendRequest} {count : ℕ} :
    Separates requestKey queue count ↔
      ∀ append ∈ queue.take count, ∀ later ∈ queue.drop count, pairOf append ≠ pairOf later := by
  unfold Separates
  simp only [ne_eq, key_eq_iff]

theorem WholeFront.separates {maxRequests : ℕ} {queue front rest : List ScriptPlotAppendRequest}
    (h : WholeFront maxRequests queue front rest) :
    Separates requestKey queue front.length := by
  rw [separates_iff, ← h.queue_eq, List.take_left, List.drop_left]
  exact h.apart

/-- **The host hands over the shortest front of its queue that is long enough and tears no
channel and source apart, and the loop that looks for it ends.** -/
theorem drainPlotAppends_shortest (maxRequests : ℕ) (queue : List ScriptPlotAppendRequest)
    (hpositive : 0 < maxRequests) :
    let drained := drainPlotAppends maxRequests queue
    let pass := extendCut requestKey queue
    WholeFront maxRequests queue drained.1 drained.2 ∧
      (∀ front rest, WholeFront maxRequests queue front rest →
        drained.1.length ≤ front.length) ∧
      ∃ rounds ≤ queue.length,
        pass^[rounds] (min maxRequests queue.length) = drained.1.length ∧
          pass drained.1.length = drained.1.length := by
  intro drained pass
  have hgrown := growCut_grown requestKey queue (min maxRequests queue.length)
  generalize hcount : growCut requestKey queue (min maxRequests queue.length) = count at hgrown
  have hle : count ≤ queue.length := hgrown.le_length (Nat.min_le_right _ _)
  have hdrained : drained = (queue.take count, queue.drop count) := by
    show drainPlotAppends maxRequests queue = _
    unfold drainPlotAppends
    split
    · rename_i hnothing
      rw [Bool.or_eq_true, decide_eq_true_eq, List.isEmpty_iff] at hnothing
      have hempty : queue = [] := hnothing.resolve_right hpositive.ne'
      rw [hempty, List.take_nil, List.drop_nil]
    · dsimp only
      rw [hcount]
  have hlength : drained.1.length = count := by
    rw [hdrained]
    exact List.length_take_of_le hle
  refine ⟨⟨?_, ?_, ?_⟩, fun front rest hfront => ?_, ?_⟩
  · rw [hdrained]
    exact List.take_append_drop count queue
  · rw [hlength]
    exact hgrown.le
  · rw [hdrained]
    exact separates_iff.mp hgrown.separates
  · rw [hlength]
    exact hgrown.least front.length hfront.enough hfront.separates
  · obtain ⟨rounds, hrounds, hreached⟩ := hgrown.rounds
    rw [hlength]
    exact ⟨rounds, hrounds.trans (Nat.sub_le _ _), hreached, hgrown.fixed⟩

open PlotQueue in
/-- Of three requests two are handed over for one, since they are for the same channel. -/
theorem drainPlotAppends_shortest_two :
    WholeFront 1 [oneSample 0, oneSample 0, oneSample 1]
      (drainPlotAppends 1 [oneSample 0, oneSample 0, oneSample 1]).1
      (drainPlotAppends 1 [oneSample 0, oneSample 0, oneSample 1]).2 :=
  (drainPlotAppends_shortest 1 [oneSample 0, oneSample 0, oneSample 1] (by decide)).1

end ProtoScope.App
