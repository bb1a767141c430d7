/-
Whether setups and appends take effect in the order the script made them.

What a run keeps is this: the waveform with the pending appends applied to it is what the
calls make of it one after another.  A batch keeps that when its setups overtake nothing,
which takes an empty queue and no push before a setup in the batch, and when its pump
changes nothing by merging and deferring: either it takes the whole queue as it is, or the
times of every channel increase and each has one source, so that the order between channels
does not matter.
-/
import ProtoScope.Proofs.App.PlotDelivery
import ProtoScope.Proofs.Plot.EventRecords
import ProtoScope.Proofs.Plot.OrderedAppends

namespace ProtoScope.App

open ProtoScope.Data (Text)
open ProtoScope.Plot
open WaveDockState OscilloscopeBuffer

/-! ### The calls of a script -/

inductive PlotCall where
  | setup (setup : RawCapturePlotSetupEventData)
  | push (append : ScriptPlotAppendRequest)

/-- The two lists the host collects: `plotSetups_` and `plotAppends_`. -/
def setupsOf (calls : List PlotCall) : List RawCapturePlotSetupEventData :=
  calls.filterMap fun
    | .setup setup => some setup
    | .push _ => none

def pushesOf (calls : List PlotCall) : List ScriptPlotAppendRequest :=
  calls.filterMap fun
    | .setup _ => none
    | .push append => some append

/-- `drainHostOutputs`, as far as plots are concerned. -/
def drainHostOutputs (calls : List PlotCall) : PlotOutputs where
  plotSetups := setupsOf calls
  plotAppends := pushesOf calls

/-- One call applied by itself.  Pushes do not reach imported data. -/
def applyCall (numbers : Numbers) (sort : SampleOrder) (wave : WaveDockState) :
    PlotCall → WaveDockState
  | .setup setup => wave.applyPlotSetup numbers setup
  | .push append =>
    if wave.buffer.importedLabelsReadOnly then wave else wave.appendRequest sort append

/-- The calls of one batch, with the budget of its pump. -/
structure PlotStep where
  calls : List PlotCall
  maxPlotAppends : ℕ

section Runs

variable (numbers : Numbers) (sort : SampleOrder) (limit : ℕ)

def plotStep (plots : ScriptPlots) (step : PlotStep) : ScriptPlots :=
  plots.applyScriptPlotOutputs numbers sort limit step.maxPlotAppends (drainHostOutputs step.calls)

def plotRun (plots : ScriptPlots) (steps : List PlotStep) : ScriptPlots :=
  steps.foldl (plotStep numbers sort limit) plots

/-- What the calls of a run are worth, one after another. -/
def inCallOrder (wave : WaveDockState) (steps : List PlotStep) : WaveDockState :=
  (steps.flatMap PlotStep.calls).foldl (applyCall numbers sort) wave

end Runs

/-! ### Conditions -/

/-- The setups come first in their batch, and find no append pending. -/
def SetupsOvertakeNothing (pending : List ScriptPlotAppendRequest) (calls : List PlotCall) : Prop :=
  setupsOf calls = [] ∨
    pending = [] ∧ calls = (setupsOf calls).map .setup ++ (pushesOf calls).map .push

/-- The queue goes through as it is: no two requests of one channel and source, and no more
than the budget. -/
def TakenWhole (maxPlotAppends : ℕ) (queue : List ScriptPlotAppendRequest) : Prop :=
  (pairs queue).Nodup ∧ queue.length ≤ maxPlotAppends

/-- The order between channels does not matter: the times of each increase, and each has one
source. -/
def OrderFree (wave : WaveDockState) (queue : List ScriptPlotAppendRequest) : Prop :=
  wave.buffer.Increasing queue ∧
    ∀ first ∈ queue, ∀ second ∈ queue, first.1 = second.1 → first.2.source = second.2.source

/-- A batch that is applied as if call by call.  Over imported data all are. -/
def StepKeepsOrder (numbers : Numbers) (plots : ScriptPlots) (step : PlotStep) : Prop :=
  plots.wave.buffer.importedLabelsReadOnly = true ∨
    SetupsOvertakeNothing plots.pendingScriptPlotAppends step.calls ∧
      (TakenWhole step.maxPlotAppends (plots.pendingScriptPlotAppends ++ pushesOf step.calls) ∨
        OrderFree (plots.wave.applyScriptPlotSetups numbers (setupsOf step.calls))
          (plots.pendingScriptPlotAppends ++ pushesOf step.calls))

/-- The appends of a batch find room in the queue. -/
def StepFits (limit : ℕ) (plots : ScriptPlots) (step : PlotStep) : Prop :=
  plots.pendingScriptPlotAppends.length + (pushesOf step.calls).length ≤ max limit 1

def RunKeepsOrder (numbers : Numbers) (sort : SampleOrder) (limit : ℕ) :
    ScriptPlots → List PlotStep → Prop
  | _, [] => True
  | plots, step :: steps =>
    StepKeepsOrder numbers plots step ∧
      RunKeepsOrder numbers sort limit (plotStep numbers sort limit plots step) steps

def RunFits (numbers : Numbers) (sort : SampleOrder) (limit : ℕ) :
    ScriptPlots → List PlotStep → Prop
  | _, [] => True
  | plots, step :: steps =>
    StepFits limit plots step ∧
      RunFits numbers sort limit (plotStep numbers sort limit plots step) steps

/-! ### Appends one after another -/

section Flush

variable (sort : SampleOrder)

/-- The waveform once a queue is applied to it, one request after another. -/
def flush (wave : WaveDockState) (queue : List ScriptPlotAppendRequest) : WaveDockState :=
  queue.foldl (appendRequest sort) wave

theorem flush_append (wave : WaveDockState) (first second : List ScriptPlotAppendRequest) :
    flush sort wave (first ++ second) = flush sort (flush sort wave first) second :=
  List.foldl_append

theorem flush_eq (wave : WaveDockState) (queue : List ScriptPlotAppendRequest) :
    flush sort wave queue = { wave with buffer := wave.buffer.appendAll sort queue } := by
  induction queue generalizing wave with
  | nil => rfl
  | cons append queue ih => exact ih (wave.appendRequest sort append)

/-- A request without samples does nothing. -/
theorem appendRequest_empty (wave : WaveDockState) {append : ScriptPlotAppendRequest}
    (h : append.2.samples = []) : wave.appendRequest sort append = wave := by
  unfold appendRequest OscilloscopeBuffer.append
  rw [if_pos h]

theorem flush_filter (wave : WaveDockState) (queue : List ScriptPlotAppendRequest) :
    flush sort wave (queue.filter fun append => !append.2.samples.isEmpty) =
      flush sort wave queue := by
  induction queue generalizing wave with
  | nil => rfl
  | cons append queue ih =>
    cases hsamples : append.2.samples with
    | nil =>
      rw [List.filter_cons_of_neg (by rw [hsamples]; decide), ih]
      show _ = flush sort (wave.appendRequest sort append) queue
      rw [appendRequest_empty sort wave hsamples]
    | cons sample samples =>
      rw [List.filter_cons_of_pos (by rw [hsamples]; rfl)]
      exact ih (wave.appendRequest sort append)

end Flush

/-! ### Imported or live -/

theorem appendPreparedSamples_source (buffer : OscilloscopeBuffer) (index : ℕ)
    (samples : List (WaveSample Float)) :
    (buffer.appendPreparedSamples index samples).dataSource = buffer.dataSource := by
  unfold appendPreparedSamples
  split <;> rfl

theorem ensureChannel_source (buffer : OscilloscopeBuffer) (index : ℕ) :
    (buffer.ensureChannel index).dataSource = buffer.dataSource := by
  unfold ensureChannel
  split <;> rfl

theorem append_source (sort : SampleOrder) (buffer : OscilloscopeBuffer) (index : ℕ)
    (request : WaveAppendRequest) :
    (buffer.append sort index request).dataSource = buffer.dataSource := by
  unfold OscilloscopeBuffer.append
  split
  · rfl
  · rw [← ensureChannel_source buffer index]
    generalize buffer.ensureChannel index = ensured
    unfold appendSorted
    split
    · exact appendPreparedSamples_source _ _ _
    · split
      · split
        · exact appendPreparedSamples_source _ _ _
        · exact appendPreparedSamples_source _ _ _
      · exact appendPreparedSamples_source _ _ _

theorem flush_source (sort : SampleOrder) (wave : WaveDockState)
    (queue : List ScriptPlotAppendRequest) :
    (flush sort wave queue).buffer.dataSource = wave.buffer.dataSource := by
  induction queue generalizing wave with
  | nil => rfl
  | cons append queue ih =>
    exact (ih (wave.appendRequest sort append)).trans (append_source sort _ _ _)

theorem setChannelSpec_source (numbers : Numbers) (buffer : OscilloscopeBuffer) (index : ℕ)
    (spec : ChannelSpec) :
    (buffer.setChannelSpec numbers index spec).dataSource = buffer.dataSource :=
  ensureChannel_source buffer index

/-- A fold over channels keeps what each channel keeps. -/
theorem foldIndexed_source {f : WaveDockState → ℕ → ChannelSpec → WaveDockState}
    (hf : ∀ wave index spec, (f wave index spec).buffer.dataSource = wave.buffer.dataSource)
    (wave : WaveDockState) (specs : List ChannelSpec) :
    (foldIndexed f wave specs).buffer.dataSource = wave.buffer.dataSource := by
  unfold foldIndexed
  induction specs.zipIdx generalizing wave with
  | nil => rfl
  | cons item items ih => exact (ih (f wave item.2 item.1)).trans (hf wave item.2 item.1)

theorem prepareBuffer_source (wave : WaveDockState) (setup : RawCapturePlotSetupEventData) :
    (wave.prepareBuffer setup).dataSource = wave.buffer.dataSource := by
  unfold prepareBuffer
  cases setup.resetHistory <;> rfl

/-- No setup changes where the data come from. -/
theorem applyPlotSetup_source (numbers : Numbers) (wave : WaveDockState)
    (setup : RawCapturePlotSetupEventData) :
    (wave.applyPlotSetup numbers setup).buffer.dataSource = wave.buffer.dataSource := by
  unfold applyPlotSetup
  split
  · exact foldIndexed_source (fun wave index spec => setChannelSpec_source numbers _ index _) wave _
  · exact (foldIndexed_source (fun wave index spec => setChannelSpec_source numbers _ index _) _
      _).trans (prepareBuffer_source wave setup)

theorem applySetups_source (numbers : Numbers) (wave : WaveDockState)
    (setups : List RawCapturePlotSetupEventData) :
    (wave.applyScriptPlotSetups numbers setups).buffer.dataSource = wave.buffer.dataSource := by
  unfold applyScriptPlotSetups
  induction setups generalizing wave with
  | nil => rfl
  | cons setup setups ih =>
    exact (ih (wave.applyPlotSetup numbers setup)).trans (applyPlotSetup_source numbers wave setup)

/-! ### A pump that takes the whole queue -/

variable {requests queue : List ScriptPlotAppendRequest}

theorem mergeInto_new {append : ScriptPlotAppendRequest} (h : pairOf append ∉ pairs requests) :
    mergeInto requests append = requests ++ [append] := by
  induction requests with
  | nil => rfl
  | cons request requests ih =>
    have hne : pairOf request ≠ pairOf append := fun heq => h (heq ▸ List.mem_cons_self)
    unfold mergeInto
    rw [if_neg hne, ih fun hmem => h (List.mem_cons_of_mem _ hmem)]
    rfl

/-- A new pair is added at the end. -/
theorem selectOrMerge_new {merged : MergedRequests} (haligned : merged.Aligned)
    {append : ScriptPlotAppendRequest} (h : pairOf append ∉ pairs merged.requests) :
    (merged.selectOrMerge append).requests = merged.requests ++ [append] :=
  (selectOrMerge_spec haligned append).1.trans (mergeInto_new h)

/-- The first of a queue without repetitions is new. -/
theorem pair_new {append : ScriptPlotAppendRequest}
    (h : (pairs (requests ++ append :: queue)).Nodup) : pairOf append ∉ pairs requests := by
  intro hmem
  unfold pairs at h hmem
  rw [List.map_append, List.map_cons] at h
  exact (List.nodup_append.mp h).2.2 _ hmem _ List.mem_cons_self rfl

theorem drain_whole {state : ScriptPlotAppendDrainState} (haligned : state.selected.Aligned)
    (hdeferred : state.deferred = []) (queue : List ScriptPlotAppendRequest)
    (hnodup : (pairs (state.selected.requests ++ queue)).Nodup)
    (hlength : state.selected.requests.length + queue.length ≤ state.maxSelectedKeys) :
    (queue.foldl drainScriptPlotAppendCandidate state).selected.requests =
        state.selected.requests ++ queue ∧
      (queue.foldl drainScriptPlotAppendCandidate state).deferred = [] := by
  induction queue generalizing state with
  | nil => exact ⟨(List.append_nil _).symm, hdeferred⟩
  | cons append queue ih =>
    rw [List.length_cons] at hlength
    have hselect : drainScriptPlotAppendCandidate state append =
        { state with selected := state.selected.selectOrMerge append } := by
      refine if_neg ?_
      unfold shouldDeferNewScriptPlotAppend
      rw [Bool.and_eq_true, decide_eq_true_eq, Aligned.length haligned]
      omega
    have hnew := selectOrMerge_new haligned (pair_new hnodup)
    rw [List.foldl_cons, hselect]
    have hrest := @ih { state with selected := state.selected.selectOrMerge append }
      (selectOrMerge_spec haligned append).2 hdeferred
      (by
        show (pairs ((state.selected.selectOrMerge append).requests ++ queue)).Nodup
        rw [hnew, List.append_assoc]
        exact hnodup)
      (by
        show (state.selected.selectOrMerge append).requests.length + queue.length ≤ _
        rw [hnew, List.length_append, List.length_singleton]
        show _ ≤ state.maxSelectedKeys
        omega)
    refine ⟨hrest.1.trans ?_, hrest.2⟩
    show (state.selected.selectOrMerge append).requests ++ queue = _
    rw [hnew, List.append_assoc]
    rfl

/-- Without repetitions, merging only leaves the empty requests out. -/
theorem mergeNonEmpty_whole {merged : MergedRequests} (haligned : merged.Aligned)
    (queue : List ScriptPlotAppendRequest) (hnodup : (pairs (merged.requests ++ queue)).Nodup) :
    (queue.foldl mergeNonEmpty merged).requests =
      merged.requests ++ queue.filter fun append => !append.2.samples.isEmpty := by
  induction queue generalizing merged with
  | nil => exact (List.append_nil _).symm
  | cons append queue ih =>
    rw [List.foldl_cons]
    cases hsamples : append.2.samples with
    | nil =>
      rw [show mergeNonEmpty merged append = merged from if_pos hsamples,
        List.filter_cons_of_neg (by rw [hsamples]; decide)]
      refine ih haligned (hnodup.sublist ?_)
      exact List.Sublist.map _ (List.Sublist.append_left (List.sublist_cons_self _ _) _)
    | cons sample samples =>
      have hselect : mergeNonEmpty merged append = merged.selectOrMerge append := by
        refine if_neg ?_
        rw [hsamples]
        exact List.cons_ne_nil _ _
      have hnew := selectOrMerge_new haligned (pair_new hnodup)
      rw [hselect, List.filter_cons_of_pos (by rw [hsamples]; rfl),
        ih (selectOrMerge_spec haligned append).2 (by
          rw [hnew, List.append_assoc]
          exact hnodup), hnew, List.append_assoc]
      rfl

/-! ### A pump where the order between channels does not matter -/

/-- The requests of a drain are for pairs it has seen. -/
theorem drain_members {state : ScriptPlotAppendDrainState} (haligned : state.selected.Aligned)
    (queue : List ScriptPlotAppendRequest) :
    (∀ pair ∈ pairs (queue.foldl drainScriptPlotAppendCandidate state).selected.requests,
        pair ∈ pairs state.selected.requests ∨ pair ∈ pairs queue) ∧
      ∀ append ∈ (queue.foldl drainScriptPlotAppendCandidate state).deferred,
        append ∈ state.deferred ∨ append ∈ queue := by
  induction queue generalizing state with
  | nil => exact ⟨fun _ hmem => .inl hmem, fun _ hmem => .inl hmem⟩
  | cons append queue ih =>
    rw [List.foldl_cons]
    by_cases hdefer : shouldDeferNewScriptPlotAppend state (requestKey append) = true
    · rw [show drainScriptPlotAppendCandidate state append =
        { state with deferred := state.deferred ++ [append] } from if_pos hdefer]
      obtain ⟨hselected, hdeferred⟩ :=
        @ih { state with deferred := state.deferred ++ [append] } haligned
      refine ⟨fun pair hmem => ?_, fun other hmem => ?_⟩
      · exact (hselected pair hmem).imp id (List.mem_cons_of_mem _)
      · obtain hmem | hmem := hdeferred other hmem
        · obtain hmem | hmem := List.mem_append.mp hmem
          · exact .inl hmem
          · exact .inr (List.mem_singleton.mp hmem ▸ List.mem_cons_self)
        · exact .inr (List.mem_cons_of_mem _ hmem)
    · rw [show drainScriptPlotAppendCandidate state append =
        { state with selected := state.selected.selectOrMerge append } from if_neg hdefer]
      obtain ⟨hrequests, hstep⟩ := selectOrMerge_spec haligned append
      obtain ⟨hselected, hdeferred⟩ :=
        @ih { state with selected := state.selected.selectOrMerge append } hstep
      refine ⟨fun pair hmem => ?_, fun other hmem => ?_⟩
      · obtain hmem | hmem := hselected pair hmem
        · replace hmem : pair ∈ pairs (state.selected.selectOrMerge append).requests := hmem
          rw [hrequests] at hmem
          obtain hmem | rfl := pairs_subset_mergeInto hmem
          · exact .inl hmem
          · exact .inr List.mem_cons_self
        · exact .inr (List.mem_cons_of_mem _ hmem)
      · exact (hdeferred other hmem).imp id (List.mem_cons_of_mem _)

/-- Where a channel has one source, what is for the channel is what is for the pair. -/
theorem channelSamples_eq {index : ℕ} {source : Text}
    (h : ∀ append ∈ requests, append.1 = index → append.2.source = source) :
    channelSamples index requests = samplesOf (index, source) requests := by
  induction requests with
  | nil => rfl
  | cons append requests ih =>
    rw [channelSamples_cons, samplesOf_cons,
      ih fun other hmem => h other (List.mem_cons_of_mem _ hmem)]
    congr 1
    by_cases hindex : append.1 = index
    · rw [if_pos hindex,
        if_pos (Prod.ext hindex (h append List.mem_cons_self hindex) : pairOf append = (index, source))]
    · rw [if_neg hindex, if_neg fun heq => hindex (congrArg Prod.fst heq)]

/-- The source of a channel, if the queue has anything for it. -/
theorem source_of_channel
    (h : ∀ first ∈ queue, ∀ second ∈ queue, first.1 = second.1 → first.2.source = second.2.source)
    (index : ℕ) :
    ∃ source : Text, ∀ append ∈ queue, append.1 = index → append.2.source = source := by
  by_cases hsome : ∃ append ∈ queue, append.1 = index
  · obtain ⟨append, hmem, hindex⟩ := hsome
    exact ⟨append.2.source, fun other hother heq => h other hother append hmem (heq.trans hindex.symm)⟩
  · exact ⟨[], fun append hmem hindex => absurd ⟨append, hmem, hindex⟩ hsome⟩

theorem source_of_pair (hpairs : ∀ pair ∈ pairs requests, pair ∈ pairs queue) {index : ℕ}
    {source : Text} (h : ∀ append ∈ queue, append.1 = index → append.2.source = source) :
    ∀ append ∈ requests, append.1 = index → append.2.source = source := by
  intro append hmem hindex
  obtain ⟨other, hother, heq⟩ :=
    List.mem_map.mp (hpairs (pairOf append) (List.mem_map.mpr ⟨append, hmem, rfl⟩))
  obtain ⟨hchannel, hsource⟩ := Prod.mk.inj heq
  exact hsource ▸ h other hother (hchannel.trans hindex)

/-- What a pump hands over and what it leaves, together, give each channel what the queue
gives it. -/
theorem drain_channelSamples (maxPlotAppends : ℕ)
    (h : ∀ first ∈ queue, ∀ second ∈ queue, first.1 = second.1 → first.2.source = second.2.source)
    (index : ℕ) :
    channelSamples index
        (mergeNonEmptyScriptPlotAppends (drainScriptPlotAppendsForPump maxPlotAppends queue).1 ++
          (drainScriptPlotAppendsForPump maxPlotAppends queue).2) =
      channelSamples index queue := by
  obtain ⟨source, hsource⟩ := source_of_channel h index
  obtain ⟨hselected, hdeferred⟩ := @drain_members
    { maxSelectedKeys := maxPlotAppends } aligned_empty queue
  have hpairs : ∀ pair ∈ pairs
      (mergeNonEmptyScriptPlotAppends (drainScriptPlotAppendsForPump maxPlotAppends queue).1 ++
        (drainScriptPlotAppendsForPump maxPlotAppends queue).2), pair ∈ pairs queue := by
    intro pair hmem
    unfold pairs at hmem
    rw [List.map_append] at hmem
    obtain hmem | hmem := List.mem_append.mp hmem
    · obtain hnone | hmem := hselected pair ((mergeNonEmpty_spec _).2 pair hmem)
      · cases hnone
      · exact hmem
    · obtain ⟨append, happend, rfl⟩ := List.mem_map.mp hmem
      obtain hnone | hmem := hdeferred append happend
      · cases hnone
      · exact List.mem_map.mpr ⟨append, hmem, rfl⟩
  rw [channelSamples_eq (source_of_pair hpairs hsource), channelSamples_eq hsource,
    samplesOf_append, (mergeNonEmpty_spec _).1]
  exact (drain_spec maxPlotAppends queue).samples (index, source)

/-- A pump of a queue that goes through whole or in any order keeps its worth. -/
theorem pump_flush (sort : SampleOrder) (maxPlotAppends : ℕ) (wave : WaveDockState)
    (queue : List ScriptPlotAppendRequest)
    (h : TakenWhole maxPlotAppends queue ∨ OrderFree wave queue) :
    flush sort (flush sort wave
        (mergeNonEmptyScriptPlotAppends (drainScriptPlotAppendsForPump maxPlotAppends queue).1))
        (drainScriptPlotAppendsForPump maxPlotAppends queue).2 =
      flush sort wave queue := by
  obtain ⟨hnodup, hlength⟩ | ⟨hincreasing, hsources⟩ := h
  · obtain ⟨hselected, hdeferred⟩ := @drain_whole
      { maxSelectedKeys := maxPlotAppends } aligned_empty rfl queue hnodup
      (by
        show 0 + queue.length ≤ maxPlotAppends
        omega)
    have hfirst : (drainScriptPlotAppendsForPump maxPlotAppends queue).1 = queue := hselected
    have hsecond : (drainScriptPlotAppendsForPump maxPlotAppends queue).2 = [] := hdeferred
    rw [hfirst, hsecond]
    have hmerged : mergeNonEmptyScriptPlotAppends queue =
        queue.filter fun append => !append.2.samples.isEmpty :=
      mergeNonEmpty_whole aligned_empty queue hnodup
    rw [hmerged]
    exact flush_filter sort wave queue
  · rw [← flush_append, flush_eq, flush_eq,
      appendAll_congr sort hincreasing
        (drain_channelSamples maxPlotAppends hsources)]

/-! ### One batch -/

section Batch

variable {numbers : Numbers} {sort : SampleOrder} {limit : ℕ}

theorem readOnly_congr {first second : OscilloscopeBuffer}
    (h : first.dataSource = second.dataSource) :
    first.importedLabelsReadOnly = second.importedLabelsReadOnly := by
  unfold importedLabelsReadOnly
  rw [h]

/-- Over imported data the pushes do nothing. -/
theorem calls_imported {wave : WaveDockState} (h : wave.buffer.importedLabelsReadOnly = true)
    (calls : List PlotCall) :
    calls.foldl (applyCall numbers sort) wave =
      wave.applyScriptPlotSetups numbers (setupsOf calls) := by
  induction calls generalizing wave with
  | nil => rfl
  | cons call calls ih =>
    cases call with
    | setup setup =>
      refine ih ?_
      rw [← h]
      exact readOnly_congr (applyPlotSetup_source numbers wave setup)
    | push append =>
      rw [List.foldl_cons, show applyCall numbers sort wave (.push append) = wave from if_pos h]
      exact ih h

theorem calls_of_no_setups {calls : List PlotCall} (h : setupsOf calls = []) :
    calls = (pushesOf calls).map .push := by
  induction calls with
  | nil => rfl
  | cons call calls ih =>
    cases call with
    | setup setup => cases h
    | push append => exact congrArg (.push append :: ·) (ih h)

theorem calls_setups (wave : WaveDockState) (setups : List RawCapturePlotSetupEventData) :
    (setups.map .setup).foldl (applyCall numbers sort) wave =
      wave.applyScriptPlotSetups numbers setups := by
  rw [List.foldl_map]
  rfl

theorem calls_pushes {wave : WaveDockState} (h : wave.buffer.importedLabelsReadOnly = false)
    (appends : List ScriptPlotAppendRequest) :
    (appends.map .push).foldl (applyCall numbers sort) wave = flush sort wave appends := by
  induction appends generalizing wave with
  | nil => rfl
  | cons append appends ih =>
    have hpush : applyCall numbers sort wave (.push append) = wave.appendRequest sort append :=
      if_neg (by rw [h]; exact Bool.noConfusion)
    rw [List.map_cons, List.foldl_cons, hpush]
    refine ih ?_
    rw [← h]
    exact readOnly_congr (append_source sort _ _ _)

variable {plots : ScriptPlots}

/-- The calls of a batch whose setups overtake nothing: first the setups, then the queue. -/
theorem calls_live {calls : List PlotCall}
    (hlive : plots.wave.buffer.importedLabelsReadOnly = false)
    (h : SetupsOvertakeNothing plots.pendingScriptPlotAppends calls) :
    calls.foldl (applyCall numbers sort)
        (flush sort plots.wave plots.pendingScriptPlotAppends) =
      flush sort (plots.wave.applyScriptPlotSetups numbers (setupsOf calls))
        (plots.pendingScriptPlotAppends ++ pushesOf calls) := by
  obtain hnone | ⟨hpending, hcalls⟩ := h
  · have hflushed : (flush sort plots.wave
        plots.pendingScriptPlotAppends).buffer.importedLabelsReadOnly = false :=
      (readOnly_congr (flush_source sort _ _)).trans hlive
    rw [hnone, flush_append]
    conv_lhs => rw [calls_of_no_setups hnone]
    exact calls_pushes hflushed _
  · have hconfigured : (plots.wave.applyScriptPlotSetups numbers
        (setupsOf calls)).buffer.importedLabelsReadOnly = false :=
      (readOnly_congr (applySetups_source numbers _ _)).trans hlive
    rw [hpending, List.nil_append]
    conv_lhs => rw [hcalls]
    rw [List.foldl_append, show flush sort plots.wave [] = plots.wave from rfl, calls_setups]
    exact calls_pushes hconfigured _

theorem enqueue_fits {pending appends : List ScriptPlotAppendRequest}
    (h : pending.length + appends.length ≤ max limit 1) :
    enqueueScriptPlotAppends limit pending appends = pending ++ appends := by
  unfold enqueueScriptPlotAppends
  rw [List.take_of_length_le (by omega)]

/-- What a run keeps: with the pending appends applied, the waveform is what the calls make of
it.  Imported data leave nothing pending. -/
structure Worth (sort : SampleOrder) (plots : ScriptPlots) (wave : WaveDockState) : Prop where
  flushed : flush sort plots.wave plots.pendingScriptPlotAppends = wave
  imported : plots.wave.buffer.importedLabelsReadOnly = true → plots.pendingScriptPlotAppends = []

theorem plotStep_imported {step : PlotStep}
    (h : (plots.wave.applyScriptPlotSetups numbers (setupsOf step.calls)).buffer.importedLabelsReadOnly = true)
    :
    plotStep numbers sort limit plots step =
      { plots with wave := plots.wave.applyScriptPlotSetups numbers (setupsOf step.calls) } :=
  if_pos h

theorem plotStep_live {step : PlotStep}
    (h : (plots.wave.applyScriptPlotSetups numbers (setupsOf step.calls)).buffer.importedLabelsReadOnly = false)
    :
    plotStep numbers sort limit plots step =
      { plots with
        wave := plots.wave.applyScriptPlotSetups numbers (setupsOf step.calls) }.applyPlotAppends
          sort limit step.maxPlotAppends (pushesOf step.calls) := by
  refine if_neg ?_
  rw [show ScriptPlots.wave _ = plots.wave.applyScriptPlotSetups numbers (setupsOf step.calls)
    from rfl, h]
  exact Bool.noConfusion

theorem plotStep_worth {wave : WaveDockState} (h : Worth sort plots wave) (step : PlotStep)
    (hfits : StepFits limit plots step) (hkeeps : StepKeepsOrder numbers plots step) :
    Worth sort (plotStep numbers sort limit plots step)
      (step.calls.foldl (applyCall numbers sort) wave) := by
  have hsource := readOnly_congr (applySetups_source numbers plots.wave (setupsOf step.calls))
  cases himported : plots.wave.buffer.importedLabelsReadOnly with
  | true =>
    rw [himported] at hsource
    have hpending := h.imported himported
    have hwave : plots.wave = wave := by
      have hflushed := h.flushed
      rw [hpending] at hflushed
      exact hflushed
    rw [plotStep_imported hsource]
    refine ⟨?_, fun _ => hpending⟩
    rw [← hwave, calls_imported himported]
    show flush sort _ plots.pendingScriptPlotAppends = _
    rw [hpending]
    rfl
  | false =>
    rw [himported] at hsource
    obtain hfalse | ⟨hovertake, horder⟩ := hkeeps
    · rw [himported] at hfalse
      cases hfalse
    have hpump := pump_flush sort step.maxPlotAppends
      (plots.wave.applyScriptPlotSetups numbers (setupsOf step.calls)) _ horder
    rw [plotStep_live hsource, ← h.flushed, calls_live himported hovertake]
    unfold ScriptPlots.applyPlotAppends appendScriptPlotRequestsToWave
    dsimp only
    rw [enqueue_fits hfits, hsource]
    refine ⟨hpump, ?_⟩
    intro hread
    have hread' := (readOnly_congr (flush_source sort _ _)).symm.trans hread
    rw [hsource] at hread'
    cases hread'

end Batch

/-! ### Runs -/

theorem plotRun_worth {numbers : Numbers} {sort : SampleOrder} {limit : ℕ} {plots : ScriptPlots}
    {wave : WaveDockState} (h : Worth sort plots wave) (steps : List PlotStep)
    (hfits : RunFits numbers sort limit plots steps)
    (hkeeps : RunKeepsOrder numbers sort limit plots steps) :
    Worth sort (plotRun numbers sort limit plots steps) (inCallOrder numbers sort wave steps) := by
  induction steps generalizing plots wave with
  | nil => exact h
  | cons step steps ih =>
    have hstep := ih (plotStep_worth h step hfits.1 hkeeps.1) hfits.2 hkeeps.2
    unfold inCallOrder at hstep ⊢
    rw [List.flatMap_cons, List.foldl_append]
    exact hstep

/-- What the script may expect: once nothing is pending, the waveform is that of its calls. -/
def AppliedInOrder (numbers : Numbers) (sort : SampleOrder) (limit : ℕ) (wave : WaveDockState)
    (steps : List PlotStep) : Prop :=
  (plotRun numbers sort limit { wave := wave } steps).pendingScriptPlotAppends = [] →
    (plotRun numbers sort limit { wave := wave } steps).wave = inCallOrder numbers sort wave steps

/-- **A run whose setups overtake nothing, and whose pumps take the queue as it is or find the
order between channels irrelevant, has the effect of its calls one after another.** -/
theorem plots_in_order (numbers : Numbers) (sort : SampleOrder) (limit : ℕ) (wave : WaveDockState)
    (steps : List PlotStep) (hfits : RunFits numbers sort limit { wave := wave } steps)
    (hkeeps : RunKeepsOrder numbers sort limit { wave := wave } steps) :
    AppliedInOrder numbers sort limit wave steps := by
  intro hpending
  have hstart : Worth sort { wave := wave } wave := ⟨rfl, fun _ => rfl⟩
  have hworth := (plotRun_worth hstart steps hfits hkeeps).flushed
  rw [hpending] at hworth
  exact hworth

/-- A setup of one channel that resets the history. -/
def resetSetup : RawCapturePlotSetupEventData where
  channels := [{ label := [97] }]
  resetHistory := true

def sampleAt (seconds : UInt64) : WaveSample Float := ⟨Float.ofBits seconds, Float.ofBits 0⟩

/-- A setup and two pushes for two channels; a second batch with one more push. -/
def orderedRun : List PlotStep :=
  [⟨[.setup resetSetup, .push (0, { samples := [sampleAt 1, sampleAt 2] }),
      .push (1, { samples := [sampleAt 1] })], 2⟩,
    ⟨[.push (1, { samples := [sampleAt 2] })], 2⟩]

theorem orderedRun_applied : AppliedInOrder sampleNumbers id 8 {} orderedRun := by
  refine plots_in_order sampleNumbers id 8 {} orderedRun ⟨?_, ?_, trivial⟩
    ⟨.inr ⟨.inr ⟨rfl, rfl⟩, .inl ⟨?_, ?_⟩⟩, .inr ⟨.inl rfl, .inl ⟨?_, ?_⟩⟩, trivial⟩
  · show 0 + 2 ≤ max 8 1
    decide
  · unfold StepFits
    decide +kernel
  · decide +kernel
  · decide +kernel
  · decide +kernel
  · decide +kernel

/-- A push and then a reset: the sample is there after all. -/
def overtakingRun : List PlotStep :=
  [⟨[.push (0, { samples := [sampleAt 1] }), .setup resetSetup], 8⟩]

theorem overtaken_reset :
    ¬ ∀ (numbers : Numbers) (sort : SampleOrder) (limit : ℕ) (wave : WaveDockState)
      (steps : List PlotStep), RunFits numbers sort limit { wave := wave } steps →
        AppliedInOrder numbers sort limit wave steps := by
  intro hall
  have h := hall sampleNumbers id 8 {} overtakingRun
    ⟨show 0 + 1 ≤ max 8 1 by decide, trivial⟩ (by decide +kernel)
  have hsamples := congrArg (fun wave : WaveDockState => (wave.buffer.samplesAt 0).length) h
  exact absurd hsamples (by decide +kernel)

end ProtoScope.App
