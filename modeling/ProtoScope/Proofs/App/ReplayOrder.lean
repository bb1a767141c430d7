/-
The order of a replay.

The events that have been submitted are those before the index, and the bytes that went out
are theirs and the slices of a large event at the index.  A control event takes effect with
nothing received on the way, and nothing received after it has gone out by then.

A pump waits for that; a single step does not, and a replay that was paused while its
protocol was being loaded may send bytes ahead of the load, which drops them.  The main
result is about the runs without these.
-/
import ProtoScope.Proofs.App.ReplayPipeline

namespace ProtoScope.App

open ProtoScope.Plot

/-- What an event sends to the worker. -/
def rxPayload (event : RawCaptureEvent) : List UInt8 :=
  if event.type = .rxBytes then event.bytes else []

def isControlEvent (event : RawCaptureEvent) : Prop :=
  event.type = .profileSet ∨ event.type = .profileClear ∨ event.type = .plotSetup

namespace RawCaptureReplay

/-- The submitted events are those before the index, each once and in their order, and control
events have taken effect in order. -/
structure Ordered (s : RawCaptureReplay) : Prop where
  submitted : s.submitted = List.range s.eventIndex
  delivered : s.delivered = (s.events.take s.eventIndex).flatMap rxPayload ++
    (s.events[s.eventIndex]?.toList.flatMap rxPayload).take s.legacyByteOffset
  effects : ∀ effect ∈ s.effects, effect.InOrder

/-- Submitting the event now keeps the order: bytes have no profile and no load before them, and
a control event finds nothing received on the way. -/
def Ready (s : RawCaptureReplay) (event : RawCaptureEvent) : Prop :=
  (event.type = .rxBytes → event.bytes ≠ [] → s.profiles = [] ∧ .load ∉ s.waiting) ∧
  (isControlEvent event → s.unapplied = [])

/-- A pump submits events. -/
def pumps (s : RawCaptureReplay) : Prop :=
  s.phase ≠ .preparing ∧ s.phase ≠ .draining ∧ s.phase ≠ .failed ∧ s.playing = true

/-- A step that keeps the order: a pump that submits finds the protocol loaded, and a single
step an event that is ready. -/
def KeepsOrder (s : RawCaptureReplay) : ReplayStep → Prop
  | .pump _ => s.pumps → .load ∉ s.waiting
  | .step _ => s.phase ≠ .preparing → ∀ event ∈ s.events[s.eventIndex]?, s.Ready event
  | .worker _ | .appends _ _ | .play _ | .pause | .seek _ _ => True

def RunKeepsOrder : RawCaptureReplay → List ReplayStep → Prop
  | _, [] => True
  | s, step :: steps => s.KeepsOrder step ∧ RunKeepsOrder (s.replayStep step) steps

/-! ### The position -/

/-- What has been submitted, up to the position. -/
structure Position (s : RawCaptureReplay) : Prop where
  submitted : s.submitted = List.range s.eventIndex
  delivered : s.delivered = (s.events.take s.eventIndex).flatMap rxPayload ++
    (s.events[s.eventIndex]?.toList.flatMap rxPayload).take s.legacyByteOffset
  sliced : s.legacyByteOffset ≠ 0 → ∃ event ∈ s.events[s.eventIndex]?, s.slicedLegacy event

structure Orderly (s : RawCaptureReplay) : Prop where
  position : s.Position
  pipeline : s.Pipeline

/-- The order is kept, and no load comes to wait. -/
structure Kept (s t : RawCaptureReplay) : Prop where
  orderly : t.Orderly
  load : .load ∈ t.waiting → .load ∈ s.waiting

variable {s t : RawCaptureReplay} {event : RawCaptureEvent}

theorem Kept.refl (h : s.Orderly) : Kept s s := ⟨h, id⟩

theorem Kept.trans {u : RawCaptureReplay} (h : Kept s t) (h' : Kept t u) : Kept s u :=
  ⟨h'.orderly, fun hload => h.load (h'.load hload)⟩

/-- The same events and the same worker, and a position that has not gone back. -/
theorem Pipeline.congr (h : s.Pipeline) (hprocessing : t.processing = s.processing)
    (hevents : t.events = s.events) (hindex : s.eventIndex ≤ t.eventIndex)
    (hfence : t.profileFence = s.profileFence) (hworker : t.worker = s.worker)
    (happends : t.pendingPlotAppends = s.pendingPlotAppends) (hposted : t.posted = s.posted)
    (hdropped : t.dropped = s.dropped) (heffects : t.effects = s.effects) : t.Pipeline := by
  have hwaiting : t.waiting = s.waiting := by rw [waiting, waiting, hworker]
  have hprofiles : t.profiles = s.profiles := by rw [profiles, profiles, hworker]
  have hresults : t.profileResults = s.profileResults := by
    rw [profileResults, profileResults, hworker]
  have hworkerEvents : t.workerEvents = s.workerEvents := by
    rw [workerEvents_eq, workerEvents_eq, hworker]
  have hunapplied : t.unapplied = s.unapplied := by
    rw [unapplied, unapplied, hworkerEvents, happends, hdropped]
  constructor
  · rw [browses, hprocessing, hworker, hunapplied]
    exact h.browse
  · exact hdropped.trans h.dropped
  · rw [hworker]
    exact h.worker
  · rw [hwaiting, hworkerEvents]
    exact h.loading
  · rw [hposted, hevents]
    exact fun j hj => ⟨(h.posted j hj).1.trans hindex, (h.posted j hj).2⟩
  · rw [hprofiles]
    exact h.increasing
  · rw [hresults]
    exact fun result hresult => lt_of_lt_of_le (h.results result hresult) hindex
  · rw [hprofiles, hfence, hresults]
    exact h.fence
  · rw [hprofiles, hunapplied, hposted]
    exact fun i hi => ⟨lt_of_lt_of_le (h.ahead i hi).1 hindex, (h.ahead i hi).2⟩
  · rw [heffects]
    exact h.effects

theorem slicedLegacy_congr (h : s.slicedLegacy event) (hprocessing : t.processing = s.processing)
    (hstream : t.streamBuffer = s.streamBuffer) : t.slicedLegacy event := by
  unfold slicedLegacy browses
  rw [hprocessing, hstream]
  exact h

theorem slicedLegacy_isSome (h : s.slicedLegacy event) : s.streamBuffer.isSome = true := by
  obtain ⟨-, -, -, buffer, hbuffer, -⟩ := h
  rw [Option.mem_def.mp hbuffer]
  rfl

/-- What is on the way moves on. -/
theorem Orderly.moved (h : s.Orderly) (hmoved : Moved s t) : Kept s t := by
  refine ⟨⟨⟨?_, ?_, ?_⟩, hmoved.pipeline⟩, hmoved.load⟩
  · rw [hmoved.submitted, hmoved.eventIndex]
    exact h.position.submitted
  · rw [hmoved.delivered, hmoved.events, hmoved.eventIndex, hmoved.legacyByteOffset]
    exact h.position.delivered
  · rw [hmoved.events, hmoved.eventIndex, hmoved.legacyByteOffset]
    intro hne
    obtain ⟨event, hevent, hsliced⟩ := h.position.sliced hne
    exact ⟨event, hevent,
      slicedLegacy_congr hsliced hmoved.processing (hmoved.stream (slicedLegacy_isSome hsliced))⟩

/-! ### Submitting an event -/

theorem waiting_pushCommand (command : OfflineCommand) (worker : OfflineWorker) :
    (worker.pushCommand command).waiting = worker.waiting ++ [command] :=
  (List.append_assoc _ _ _).symm

theorem waiting_pushBytes (event : ℕ) {size : ℕ} (h : size ≠ 0) (worker : OfflineWorker) :
    (worker.pushBytes event size).waiting = worker.waiting ++ [.bytes event size] := by
  unfold OfflineWorker.pushBytes
  rw [if_neg h]
  exact (List.append_assoc _ _ _).symm

/-- Another command at the end keeps a worker in order, unless it loads. -/
theorem not_mem_tail_append {commands : List OfflineCommand} {command : OfflineCommand}
    (h : .load ∉ commands.tail) (hne : command ≠ .load) : .load ∉ (commands ++ [command]).tail := by
  cases commands with
  | nil => exact List.not_mem_nil
  | cons first rest =>
    rw [List.cons_append, List.tail_cons, List.mem_append, List.mem_singleton, not_or]
    exact ⟨h, Ne.symm hne⟩

theorem wf_pushed {worker other : OfflineWorker} (h : worker.Wf) {command : OfflineCommand}
    (hwaiting : other.waiting = worker.waiting ++ [command]) (hne : command ≠ .load)
    (hhost : other.hostBuffer = worker.hostBuffer) (hstream : other.streamBuffer = worker.streamBuffer)
    (hexecuting : other.executing = worker.executing) : other.Wf := by
  constructor
  · rw [hwaiting]
    exact not_mem_tail_append h.loads hne
  · rw [hwaiting, hhost, List.mem_append, List.mem_singleton, not_or]
    exact fun hsome => ⟨h.host hsome, Ne.symm hne⟩
  · rw [hhost, hstream]
    exact h.stream
  · rw [hexecuting]
    exact h.batch

/-- The worker after bytes went out. -/
theorem post_worker (h : ∀ worker ∈ s.worker, worker.Wf) (hprofiles : s.profiles = [])
    (hload : .load ∉ s.waiting) (index : ℕ) {bytes : List UInt8} (hbytes : bytes ≠ []) :
    (∀ worker ∈ (s.post index bytes).worker, worker.Wf) ∧ (s.post index bytes).profiles = [] ∧
      .load ∉ (s.post index bytes).waiting ∧
      (s.post index bytes).profileResults = s.profileResults ∧
      (s.post index bytes).streamBuffer = s.streamBuffer := by
  have hsize : bytes.length ≠ 0 := fun heq => hbytes (List.length_eq_zero_iff.mp heq)
  cases hworker : s.worker with
  | none =>
    have hnone : (s.post index bytes).worker = none := by
      rw [post, hworker]
      rfl
    unfold profiles waiting profileResults streamBuffer
    rw [hnone, hworker]
    exact ⟨(fun _ hmem => nomatch hmem), rfl, List.not_mem_nil, rfl, rfl⟩
  | some worker =>
    have hpushed : (s.post index bytes).worker = some (worker.pushBytes index bytes.length) := by
      rw [post, hworker]
      rfl
    have hwaiting := waiting_pushBytes index hsize worker
    have hfields : (worker.pushBytes index bytes.length).hostBuffer = worker.hostBuffer ∧
        (worker.pushBytes index bytes.length).streamBuffer = worker.streamBuffer ∧
        (worker.pushBytes index bytes.length).executing = worker.executing ∧
        (worker.pushBytes index bytes.length).profileResults = worker.profileResults := by
      unfold OfflineWorker.pushBytes
      rw [if_neg hsize]
      exact ⟨rfl, rfl, rfl, rfl⟩
    rw [profiles_of hworker] at hprofiles
    rw [waiting_of hworker] at hload
    rw [profiles_of hpushed, waiting_of hpushed, profileResults_of hpushed, profileResults_of hworker,
      streamBuffer_of hpushed, streamBuffer_of hworker]
    refine ⟨?_, ?_, ?_, hfields.2.2.2, hfields.2.1⟩
    · intro other hother
      rw [hpushed] at hother
      cases hother
      exact wf_pushed (h worker hworker) hwaiting (fun heq => nomatch heq) hfields.1 hfields.2.1
        hfields.2.2.1
    · unfold OfflineWorker.profiles at hprofiles ⊢
      rw [hwaiting, List.filterMap_append, hprofiles]
      rfl
    · rw [hwaiting, List.mem_append, List.mem_singleton, not_or]
      exact ⟨hload, fun heq => nomatch heq⟩

/-- Bytes go out with no profile and no load before them. -/
theorem Pipeline.post (h : s.Pipeline) (hevent : s.events[s.eventIndex]? = some event)
    (hrx : event.type = .rxBytes) (hprofiles : s.profiles = []) (hload : .load ∉ s.waiting)
    {bytes : List UInt8} (hbytes : bytes ≠ []) : (s.post s.eventIndex bytes).Pipeline := by
  obtain ⟨hwf, hprofiles', hload', hresults, -⟩ :=
    post_worker h.worker hprofiles hload s.eventIndex hbytes
  refine ⟨?_, h.dropped, hwf, fun hmem => absurd hmem hload', ?_, ?_, ?_, ?_, ?_, h.effects⟩
  · intro hbrowse
    obtain ⟨hnone, hunapplied⟩ := h.browse hbrowse
    have hnone' : (s.post s.eventIndex bytes).worker = none := by
      rw [RawCaptureReplay.post, hnone]
      rfl
    refine ⟨hnone', ?_⟩
    unfold unapplied at hunapplied ⊢
    rw [workerEvents_eq, hnone] at hunapplied
    rw [workerEvents_eq, hnone']
    exact hunapplied
  · intro j hj
    obtain hj | hj := List.mem_append.mp hj
    · exact h.posted j hj
    · rw [List.mem_singleton] at hj
      rw [hj]
      exact ⟨le_refl _, event, hevent, hrx⟩
  · rw [hprofiles']
    exact List.Pairwise.nil
  · rw [hresults]
    exact h.results
  · rw [hprofiles']
    exact fun _ hmem => nomatch hmem
  · rw [hprofiles']
    exact fun _ hmem => nomatch hmem

theorem Pipeline.takeEffect (h : s.Pipeline) (hunapplied : s.unapplied = []) :
    (s.takeEffect s.eventIndex).Pipeline := by
  refine ⟨h.browse, h.dropped, h.worker, h.loading, h.posted, h.increasing, h.results, h.fence,
    h.ahead, ?_⟩
  intro effect heffect
  obtain heffect | heffect := List.mem_append.mp heffect
  · exact h.effects effect heffect
  · rw [List.mem_singleton] at heffect
    rw [heffect]
    refine ⟨fun j hj => ?_, fun j hj => Nat.not_lt_of_le (h.posted j hj).1⟩
    rw [show (s.controlEffect s.eventIndex).unapplied = [] from hunapplied] at hj
    cases hj

/-- A profile goes to the worker. -/
theorem Pipeline.profile (h : s.Pipeline) (hevent : s.events[s.eventIndex]? = some event)
    (hcontrol : event.type ≠ .rxBytes) (hunapplied : s.unapplied = []) {worker : OfflineWorker}
    (hworker : s.worker = some worker) :
    ({ s.applyProfileAsync s.eventIndex with eventIndex := s.eventIndex + 1 } :
        RawCaptureReplay).Pipeline ∧
      (.load ∈ (s.applyProfileAsync s.eventIndex).waiting → .load ∈ s.waiting) := by
  let t : RawCaptureReplay := { s.applyProfileAsync s.eventIndex with eventIndex := s.eventIndex + 1 }
  have hpushed : t.worker = some (worker.pushCommand (.profile s.eventIndex)) := by
    show s.worker.map _ = _
    rw [hworker]
    rfl
  have hwaiting := waiting_pushCommand (.profile s.eventIndex) worker
  have hprofiles : t.profiles = s.profiles ++ [s.eventIndex] := by
    rw [profiles_of hpushed, profiles_of hworker, OfflineWorker.profiles, hwaiting,
      List.filterMap_append]
    rfl
  have hload : .load ∈ t.waiting → .load ∈ s.waiting := by
    rw [waiting_of hpushed, waiting_of hworker, hwaiting, List.mem_append, List.mem_singleton]
    exact fun hmem => hmem.resolve_right fun heq => nomatch heq
  have hevents : t.workerEvents = s.workerEvents := by
    rw [workerEvents_of hpushed, workerEvents_of hworker]
    unfold OfflineWorker.events OfflineWorker.pushCommand
    rw [List.filterMap_append]
    simp [OfflineCommand.rxEvent?]
  have hunapplied' : t.unapplied = [] := by
    unfold unapplied at hunapplied ⊢
    rw [hevents]
    exact hunapplied
  have hresults : t.profileResults = s.profileResults := by
    rw [profileResults_of hpushed, profileResults_of hworker]
    rfl
  -- Nothing received has the index of this event, which is no received one.
  have hbefore : ∀ j ∈ s.posted, j < s.eventIndex := by
    intro j hj
    obtain ⟨hle, other, hother, hrx⟩ := h.posted j hj
    refine lt_of_le_of_ne hle fun heq => ?_
    rw [heq, hevent] at hother
    cases hother
    exact hcontrol hrx
  refine ⟨⟨?_, h.dropped, ?_, ?_, ?_, ?_, ?_, ?_, ?_, h.effects⟩, hload⟩
  · intro hbrowse
    have hnone := (h.browse hbrowse).1
    rw [hworker] at hnone
    cases hnone
  · intro other hother
    rw [hpushed] at hother
    cases hother
    exact wf_pushed (h.worker worker hworker) hwaiting (fun heq => nomatch heq) rfl rfl rfl
  · intro hmem
    rw [hevents]
    exact h.loading (hload hmem)
  · exact fun j hj => ⟨(hbefore j hj).le.trans (Nat.le_succ _), (h.posted j hj).2⟩
  · rw [hprofiles, List.pairwise_append]
    refine ⟨h.increasing, List.pairwise_singleton _ _, fun i hi j hj => ?_⟩
    rw [List.mem_singleton.mp hj]
    exact (h.ahead i hi).1
  · rw [hresults]
    exact fun result hresult => (h.results result hresult).trans (Nat.lt_succ_self _)
  · rw [hprofiles, hresults, List.getLast?_concat]
    intro i hi
    cases hi
    refine ⟨rfl, ?_⟩
    rw [List.lookup_eq_none_iff]
    intro result hresult
    exact bne_iff_ne.mpr (Nat.ne_of_gt (h.results result hresult))
  · rw [hprofiles]
    intro i hi
    obtain hi | hi := List.mem_append.mp hi
    · obtain ⟨hlt, -, hposted⟩ := h.ahead i hi
      exact ⟨hlt.trans (Nat.lt_succ_self _), hunapplied', hposted⟩
    · rw [List.mem_singleton.mp hi]
      exact ⟨Nat.lt_succ_self _, hunapplied', hbefore⟩

theorem take_succ_flatMap {events : List RawCaptureEvent} {index : ℕ}
    (h : events[index]? = some event) :
    (events.take (index + 1)).flatMap rxPayload =
      (events.take index).flatMap rxPayload ++ rxPayload event := by
  rw [List.take_add_one, List.flatMap_append, h]
  simp

/-- The next position, with the whole event gone out. -/
theorem Position.advance (h : s.Position) (hevent : s.events[s.eventIndex]? = some event)
    (hnot : ¬ s.slicedLegacy event) (hevents : t.events = s.events)
    (hindex : t.eventIndex = s.eventIndex + 1) (hoffset : t.legacyByteOffset = s.legacyByteOffset)
    (hsubmitted : t.submitted = s.submitted ++ [s.eventIndex])
    (hdelivered : t.delivered = s.delivered ++ rxPayload event) : t.Position := by
  have hzero : s.legacyByteOffset = 0 := by
    by_contra hne
    obtain ⟨other, hother, hsliced⟩ := h.sliced hne
    rw [hevent] at hother
    cases hother
    exact hnot hsliced
  refine ⟨?_, ?_, fun hne => absurd (hoffset.trans hzero) hne⟩
  · rw [hsubmitted, hindex, h.submitted, List.range_succ]
  · rw [hdelivered, hevents, hindex, hoffset, hzero, List.take_zero, List.append_nil,
      take_succ_flatMap hevent, h.delivered, hzero, List.take_zero, List.append_nil]

theorem rxPayload_of_ne (h : event.type ≠ .rxBytes) : rxPayload event = [] := if_neg h

/-- **An event that is ready keeps the order.** -/
theorem replayRawCaptureEvent_kept (frameApplied : Bool) (h : s.Orderly)
    (hevent : s.events[s.eventIndex]? = some event) (hnot : ¬ s.slicedLegacy event)
    (hready : s.Ready event) :
    ((s.replayRawCaptureEvent frameApplied s.eventIndex event).2 = true →
      Kept s { (s.replayRawCaptureEvent frameApplied s.eventIndex event).1 with
        eventIndex := s.eventIndex + 1 }) ∧
    ((s.replayRawCaptureEvent frameApplied s.eventIndex event).2 = false →
      Kept s (s.replayRawCaptureEvent frameApplied s.eventIndex event).1) := by
  obtain ⟨hposition, hpipeline⟩ := h
  have hadvance : s.Pipeline → ({ s.submit s.eventIndex with
      eventIndex := s.eventIndex + 1 } : RawCaptureReplay).Pipeline := fun h =>
    h.congr rfl rfl (Nat.le_succ _) rfl rfl rfl rfl rfl rfl
  have heffect : s.unapplied = [] → ({ (s.takeEffect s.eventIndex).submit s.eventIndex with
      eventIndex := s.eventIndex + 1 } : RawCaptureReplay).Pipeline := fun hunapplied =>
    (hpipeline.takeEffect hunapplied).congr rfl rfl (Nat.le_succ _) rfl rfl rfl rfl rfl rfl
  unfold replayRawCaptureEvent
  by_cases htx : event.type = .txBytes
  · rw [if_pos htx]
    have hne : event.type ≠ .rxBytes := by rw [htx]; exact fun heq => nomatch heq
    refine ⟨fun _ => ⟨⟨?_, hadvance hpipeline⟩, id⟩, fun heq => nomatch heq⟩
    refine hposition.advance hevent hnot rfl rfl rfl rfl ?_
    rw [rxPayload_of_ne hne, List.append_nil]
    rfl
  rw [if_neg htx]
  by_cases hprofile : event.type = .profileSet ∨ event.type = .profileClear
  · rw [if_pos hprofile]
    have hcontrol : isControlEvent event := hprofile.imp id .inl
    have hunapplied := hready.2 hcontrol
    have hne : event.type ≠ .rxBytes := by
      obtain heq | heq := hprofile
      · rw [heq]
        exact fun heq => nomatch heq
      · rw [heq]
        exact fun heq => nomatch heq
    have hposition' : ∀ {t : RawCaptureReplay}, t.events = s.events → t.eventIndex = s.eventIndex + 1 →
        t.legacyByteOffset = s.legacyByteOffset → t.submitted = s.submitted ++ [s.eventIndex] →
          t.delivered = s.delivered → t.Position := by
      intro t hevents hindex hoffset hsubmitted hdelivered
      refine hposition.advance hevent hnot hevents hindex hoffset hsubmitted ?_
      rw [rxPayload_of_ne hne, List.append_nil]
      exact hdelivered
    split
    · exact ⟨(fun heq => nomatch heq), fun _ => Kept.refl ⟨hposition, hpipeline⟩⟩
    split
    · exact ⟨fun _ => ⟨⟨hposition' rfl rfl rfl rfl rfl, heffect hunapplied⟩, id⟩,
        fun heq => nomatch heq⟩
    split
    · refine ⟨(fun heq => nomatch heq), fun _ => ⟨⟨?_, hpipeline.takeEffect hunapplied⟩, id⟩⟩
      exact ⟨hposition.submitted, hposition.delivered, hposition.sliced⟩
    · rename_i hsome
      obtain ⟨worker, hworker⟩ := Option.ne_none_iff_exists'.mp
        (fun heq => hsome (Option.isNone_iff_eq_none.mpr heq))
      have hpushed := (hpipeline.takeEffect hunapplied).profile hevent hne hunapplied hworker
      refine ⟨fun _ => ⟨⟨hposition' rfl rfl rfl rfl rfl, ?_⟩, hpushed.2⟩, fun heq => nomatch heq⟩
      exact hpushed.1.congr rfl rfl (le_refl _) rfl rfl rfl rfl rfl rfl
  rw [if_neg hprofile]
  by_cases hsetup : event.type = .plotSetup
  · rw [if_pos hsetup]
    have hne : event.type ≠ .rxBytes := by rw [hsetup]; exact fun heq => nomatch heq
    refine ⟨fun _ => ⟨⟨?_, heffect (hready.2 (.inr (.inr hsetup)))⟩, id⟩, fun heq => nomatch heq⟩
    refine hposition.advance hevent hnot rfl rfl rfl rfl ?_
    rw [rxPayload_of_ne hne, List.append_nil]
    rfl
  rw [if_neg hsetup]
  have hrx : event.type = .rxBytes := by
    rw [not_or] at hprofile
    cases heq : event.type with
    | rxBytes => rfl
    | profileSet => exact absurd heq hprofile.1
    | profileClear => exact absurd heq hprofile.2
    | plotSetup => exact absurd heq hsetup
    | txBytes => exact absurd heq htx
  have hpayload : rxPayload event = event.bytes := if_pos hrx
  by_cases hempty : event.bytes = []
  · rw [if_pos hempty]
    refine ⟨fun _ => ⟨⟨?_, hadvance hpipeline⟩, id⟩, fun heq => nomatch heq⟩
    refine hposition.advance hevent hnot rfl rfl rfl rfl ?_
    rw [hpayload, hempty, List.append_nil]
    rfl
  rw [if_neg hempty]
  split
  · exact ⟨(fun heq => nomatch heq), fun _ => Kept.refl ⟨hposition, hpipeline⟩⟩
  · obtain ⟨hprofiles, hload⟩ := hready.1 hrx hempty
    have hpost := hpipeline.post hevent hrx hprofiles hload hempty
    have hload' := (post_worker hpipeline.worker hprofiles hload s.eventIndex hempty).2.2.1
    refine ⟨fun _ => ⟨⟨?_, ?_⟩, fun hmem => absurd hmem hload'⟩, fun heq => nomatch heq⟩
    · refine hposition.advance hevent hnot rfl rfl rfl rfl ?_
      rw [hpayload]
      rfl
    · exact hpost.congr rfl rfl (Nat.le_succ _) rfl rfl rfl rfl rfl rfl

/-! ### Slices of a large event -/

theorem slicedLegacy_loaded (h : s.Pipeline) (hsliced : s.slicedLegacy event) :
    .load ∉ s.waiting := by
  have hsome := slicedLegacy_isSome hsliced
  obtain ⟨worker, hworker⟩ : ∃ worker, s.worker = some worker := by
    cases hworker : s.worker with
    | none =>
      unfold streamBuffer at hsome
      rw [hworker] at hsome
      cases hsome
    | some worker => exact ⟨worker, rfl⟩
  have hwf := h.worker worker hworker
  rw [streamBuffer_of hworker] at hsome
  rw [waiting_of hworker]
  exact hwf.host (hwf.stream hsome ▸ hsome)

theorem postSlice_pipeline (h : s.Pipeline) (hevent : s.events[s.eventIndex]? = some event)
    (hrx : event.type = .rxBytes) (hprofiles : s.profiles = []) (hload : .load ∉ s.waiting)
    (slice : List UInt8) :
    (s.postSlice s.eventIndex slice).Pipeline ∧ .load ∉ (s.postSlice s.eventIndex slice).waiting ∧
      (s.postSlice s.eventIndex slice).streamBuffer = s.streamBuffer ∧
      (s.postSlice s.eventIndex slice).delivered = s.delivered ++ slice := by
  unfold postSlice
  by_cases hnil : slice = []
  · rw [if_pos hnil, hnil, List.append_nil]
    exact ⟨h, hload, rfl, rfl⟩
  · rw [if_neg hnil]
    obtain ⟨-, -, hload', -, hstream⟩ := post_worker h.worker hprofiles hload s.eventIndex hnil
    exact ⟨h.post hevent hrx hprofiles hload hnil, hload', hstream, rfl⟩

/-- The slice goes on where the last one ended. -/
theorem take_legacySlice (chunkBytes accepted : ℕ) (event : RawCaptureEvent) (s : RawCaptureReplay) :
    event.bytes.take (s.legacyByteOffset + (s.legacySlice chunkBytes accepted event).length) =
      event.bytes.take s.legacyByteOffset ++ s.legacySlice chunkBytes accepted event := by
  rw [List.take_add]
  congr 1
  refine (List.prefix_iff_eq_take.mp ?_).symm
  exact (List.take_prefix _ _).trans (List.take_prefix _ _)

theorem replayLegacySlice_kept (chunkBytes accepted : ℕ) (h : s.Orderly)
    (hevent : s.events[s.eventIndex]? = some event) (hsliced : s.slicedLegacy event)
    (hprofiles : s.profiles = []) :
    Kept s (s.replayLegacySlice chunkBytes accepted s.eventIndex event) := by
  obtain ⟨hposition, hpipeline⟩ := h
  have hrx : event.type = .rxBytes := hsliced.2.1
  have hpayload : (s.events[s.eventIndex]?.toList.flatMap rxPayload) = event.bytes := by
    rw [hevent, Option.toList_some, List.flatMap_singleton]
    exact if_pos hrx
  have hload := slicedLegacy_loaded hpipeline hsliced
  unfold replayLegacySlice
  split
  · exact Kept.refl ⟨hposition, hpipeline⟩
  split
  · obtain ⟨hpost, hload', hstream, hdelivered⟩ := postSlice_pipeline hpipeline hevent hrx hprofiles
      hload (s.legacySlice chunkBytes accepted event)
    have hsame := postSlice_same s.eventIndex (s.legacySlice chunkBytes accepted event) s
    have hsubmitted : (s.postSlice s.eventIndex (s.legacySlice chunkBytes accepted event)).submitted =
        s.submitted := by
      unfold postSlice
      split
      · rfl
      · rfl
    refine ⟨⟨⟨?_, ?_, fun _ => ⟨event, ?_, ?_⟩⟩, ?_⟩, fun hmem => absurd hmem hload'⟩
    · rw [hsubmitted, hsame.2]
      exact hposition.submitted
    · rw [hdelivered, hsame.1.events, hsame.2, hpayload, take_legacySlice, ← List.append_assoc,
        hposition.delivered, hpayload]
    · rw [hsame.1.events, hsame.2]
      exact hevent
    · exact slicedLegacy_congr hsliced hsame.1.processing hstream
    · exact hpost.congr rfl rfl (le_refl _) rfl rfl rfl rfl rfl rfl
  · rename_i hend
    refine ⟨⟨⟨?_, ?_, fun hne => absurd rfl hne⟩, ?_⟩, id⟩
    · show s.submitted ++ [s.eventIndex] = List.range (s.eventIndex + 1)
      rw [hposition.submitted, List.range_succ]
    · show s.delivered = (s.events.take (s.eventIndex + 1)).flatMap rxPayload ++ _
      rw [List.take_zero, List.append_nil, take_succ_flatMap hevent, hposition.delivered, hpayload,
        List.take_of_length_le (Nat.le_of_not_lt hend)]
      exact congrArg _ (if_pos hrx).symm
    · exact hpipeline.congr rfl rfl (Nat.le_succ _) rfl rfl rfl rfl rfl rfl

/-- **Replaying the event at the index keeps the order**, if it is ready. -/
theorem replayRawCaptureEventAt_kept (choice : EventChoice) (h : s.Orderly)
    (hready : ∀ event ∈ s.events[s.eventIndex]?, s.Ready event) :
    Kept s (s.replayRawCaptureEventAt choice s.eventIndex).1 := by
  unfold replayRawCaptureEventAt
  split
  · exact Kept.refl h
  split
  · exact Kept.refl h
  · rename_i event hevent
    split
    · rename_i hsliced
      have hmoved := flush_moved choice.flush h.pipeline
      have hflushed := h.moved hmoved
      have hstream := hmoved.stream (slicedLegacy_isSome hsliced)
      have hsliced' := slicedLegacy_congr hsliced hmoved.processing hstream
      have hbytes : event.bytes ≠ [] := by
        obtain ⟨-, -, -, buffer, -, hlt⟩ := hsliced
        exact List.ne_nil_of_length_pos (Nat.zero_lt_of_lt hlt)
      have hprofiles : (s.flushOfflineScriptOutputs choice.flush).profiles = [] := by
        have hsuffix := hmoved.profiles
        rw [((hready event hevent).1 hsliced.2.1 hbytes).1] at hsuffix
        exact List.suffix_nil.mp hsuffix
      have hevent' := hevent
      rw [← hmoved.events, ← hmoved.eventIndex] at hevent'
      have hslice := replayLegacySlice_kept (resolveRawCaptureReplayChunkBytes s.streamBuffer)
        choice.accepted hflushed.orderly hevent' hsliced' hprofiles
      rw [hmoved.eventIndex] at hslice
      exact hflushed.trans hslice
    · rename_i hnot
      obtain ⟨hdone, hfailed⟩ := replayRawCaptureEvent_kept choice.frameApplied h hevent hnot
        (hready event hevent)
      split
      · rename_i htrue
        exact hdone htrue
      · rename_i hfalse
        exact hfailed (Bool.eq_false_iff.mpr hfalse)

/-! ### Pumping -/

/-- The modes of playback have no part in the order. -/
theorem Orderly.modes (h : s.Orderly) (playing : Bool) (targetEventIndex completedLuaInputs : ℕ)
    (resumeAfterSeek : Bool) (pacingAfterSeek : OfflineReplayPacing) (phase : OfflineReplayPhase)
    (pacing : OfflineReplayPacing) (preparation rebuilding : Bool) :
    Kept s { s with playing, targetEventIndex, completedLuaInputs, resumeAfterSeek, pacingAfterSeek,
                    phase, pacing, preparation, rebuilding } where
  orderly := ⟨⟨h.position.submitted, h.position.delivered, h.position.sliced⟩,
    h.pipeline.congr rfl rfl (le_refl _) rfl rfl rfl rfl rfl rfl⟩
  load := id

/-- A profile that waits is seen by its fence. -/
theorem Pipeline.profiles_of_fence (h : s.Pipeline) (hfence : s.fenceState ≠ .waiting) :
    s.profiles = [] := by
  by_contra hne
  obtain ⟨hsome, hlookup⟩ := h.fence _ (List.getLast?_eq_some_getLast hne)
  apply hfence
  unfold fenceState
  rw [hsome]
  cases hworker : s.worker with
  | none => rfl
  | some worker =>
    rw [profileResults_of hworker] at hlookup
    dsimp only [Option.bind_some]
    rw [hlookup]

theorem Orderly.openFence (h : s.Orderly) (hprofiles : s.profiles = []) :
    Kept s { s with profileFence := none } := by
  obtain ⟨hposition, hpipeline⟩ := h
  refine ⟨⟨⟨hposition.submitted, hposition.delivered, hposition.sliced⟩, hpipeline.browse,
    hpipeline.dropped, hpipeline.worker, hpipeline.loading, hpipeline.posted, hpipeline.increasing,
    hpipeline.results, ?_, hpipeline.ahead, hpipeline.effects⟩, id⟩
  show ∀ i ∈ s.profiles.getLast?, _
  rw [hprofiles]
  exact fun _ hmem => nomatch hmem

theorem drainFlushed_kept (choice : DrainChoice) (h : s.Orderly) :
    Kept s (drainFlushed choice s) := by
  unfold drainFlushed
  split
  · exact h.modes _ _ _ _ _ _ _ _ _
  split
  · exact Kept.refl h
  split
  · exact Kept.refl h
  unfold finishDraining
  split
  · exact h.modes _ _ _ _ _ _ _ _ _
  · exact h.modes _ _ _ _ _ _ _ _ _

theorem drainRawCaptureReplay_kept (choice : DrainChoice) (h : s.Orderly) :
    Kept s (drainRawCaptureReplay choice s) := by
  unfold drainRawCaptureReplay
  cases hfence : s.fenceState with
  | waiting => exact Kept.refl h
  | failed =>
    have hprofiles := h.pipeline.profiles_of_fence (by rw [hfence]; exact fun heq => nomatch heq)
    have hopened := h.openFence hprofiles
    exact hopened.trans (hopened.orderly.modes _ _ _ _ _ _ _ _ _)
  | «open» =>
    have hprofiles := h.pipeline.profiles_of_fence (by rw [hfence]; exact fun heq => nomatch heq)
    have hopened := h.openFence hprofiles
    have hflushed := hopened.orderly.moved (flush_moved choice.flush hopened.orderly.pipeline)
    exact (hopened.trans hflushed).trans (drainFlushed_kept choice hflushed.orderly)

/-- An idle worker has nothing received on the way. -/
theorem unapplied_of_idle (hdropped : s.dropped = []) (hidle : s.workerIdle = true)
    (happends : s.pendingPlotAppends = []) : s.unapplied = [] := by
  unfold unapplied
  rw [hdropped, happends, workerEvents_eq]
  cases hworker : s.worker with
  | none => rfl
  | some worker =>
    unfold workerIdle at hidle
    rw [hworker, Option.any_some] at hidle
    unfold OfflineWorker.idle at hidle
    rw [Bool.and_eq_true, Bool.and_eq_true, Option.isNone_iff_eq_none, List.isEmpty_iff,
      List.isEmpty_iff] at hidle
    obtain ⟨⟨hexecuting, hcommands⟩, houtputs⟩ := hidle
    show worker.events ++ [] ++ [] = []
    unfold OfflineWorker.events
    rw [hexecuting, hcommands, houtputs]
    rfl

/-- What a pump admits is ready. -/
theorem Ready.of_admits (h : s.Pipeline) (hprofiles : s.profiles = []) (hload : .load ∉ s.waiting)
    {round : Round} {events : ℕ} (hadmits : s.admits round events event) : s.Ready event := by
  refine ⟨fun _ _ => ⟨hprofiles, hload⟩, fun hcontrol => ?_⟩
  by_cases hbrowse : s.browses
  · exact (h.browse hbrowse).2
  · obtain ⟨-, -, -, hworker⟩ := hadmits
    obtain ⟨-, hidle, -⟩ := hworker hbrowse
    have hne : event.type ≠ .rxBytes := by
      obtain heq | heq | heq := hcontrol
      · rw [heq]
        exact fun heq => nomatch heq
      · rw [heq]
        exact fun heq => nomatch heq
      · rw [heq]
        exact fun heq => nomatch heq
    obtain ⟨hidle, happends⟩ := hidle hne
    exact unapplied_of_idle h.dropped hidle happends

def RoundResult.KeptFrom (s : RawCaptureReplay) : RoundResult → Prop
  | .stop t | .fail t | .next t => Kept s t

theorem submitRound_kept (h : s.Orderly) (choice : EventChoice)
    (hready : ∀ event ∈ s.events[s.eventIndex]?, s.Ready event) :
    RoundResult.KeptFrom s (s.submitRound choice) := by
  have hkept := replayRawCaptureEventAt_kept choice h hready
  unfold submitRound
  split
  · exact hkept.trans (hkept.orderly.modes _ _ _ _ _ _ _ _ _)
  split
  · exact hkept
  · exact hkept

theorem pumpRound_kept (h : s.Orderly) (hload : .load ∉ s.waiting) (round : Round) (events : ℕ)
    (hevent : s.events[s.eventIndex]? = some event) :
    RoundResult.KeptFrom s (s.pumpRound round events event) := by
  unfold pumpRound
  cases hfence : s.fenceState with
  | waiting => exact Kept.refl h
  | failed =>
    have hprofiles := h.pipeline.profiles_of_fence (by rw [hfence]; exact fun heq => nomatch heq)
    have hopened := h.openFence hprofiles
    exact hopened.trans (hopened.orderly.modes _ _ _ _ _ _ _ _ _)
  | «open» =>
    have hprofiles := h.pipeline.profiles_of_fence (by rw [hfence]; exact fun heq => nomatch heq)
    have hopened := h.openFence hprofiles
    let opened : RawCaptureReplay := { s with profileFence := none }
    show RoundResult.KeptFrom s (opened.openRound round events event)
    unfold openRound
    split
    · split
      · exact hopened
      · exact hopened.trans (hopened.orderly.modes _ _ _ _ _ _ _ _ _)
    split
    · rename_i hadmits
      have hready : ∀ other ∈ opened.events[opened.eventIndex]?, opened.Ready other := by
        intro other hother
        obtain rfl : event = other := Option.some.inj (hevent.symm.trans hother)
        exact Ready.of_admits hopened.orderly.pipeline hprofiles hload hadmits
      have hround := submitRound_kept hopened.orderly round.event hready
      revert hround
      generalize opened.submitRound round.event = result
      intro hround
      cases result with
      | stop t => exact hopened.trans hround
      | fail t => exact hopened.trans hround
      | next t => exact hopened.trans hround
    · exact hopened

/-- The loop of a pump keeps the order once the protocol is loaded. -/
theorem pumpLoop_kept (rounds : List Round) (events bytes : ℕ) (h : s.Orderly)
    (hload : .load ∉ s.waiting) : Kept s (pumpLoop rounds events bytes s).1 := by
  induction rounds generalizing events bytes s with
  | nil => exact Kept.refl h
  | cons round rounds ih =>
    unfold pumpLoop
    split
    · exact Kept.refl h
    · rename_i event hevent
      split
      · exact Kept.refl h
      · have hrun := workerRun_moved round.moves h.pipeline
        have hmoved := h.moved hrun
        have hevent' := hevent
        rw [← hrun.events, ← hrun.eventIndex] at hevent'
        have hround := pumpRound_kept hmoved.orderly (fun hmem => hload (hmoved.load hmem)) round
          events hevent'
        split
        · rename_i t hresult
          rw [hresult] at hround
          exact hmoved.trans hround
        · rename_i t hresult
          rw [hresult] at hround
          exact hmoved.trans hround
        · rename_i t hresult
          rw [hresult] at hround
          have hkept := hmoved.trans hround
          exact hkept.trans (ih (events + 1) (bytes + event.bytes.length) hkept.orderly
            fun hmem => hload (hkept.load hmem))

theorem pumpPreparation_kept (h : s.Orderly) : Kept s s.pumpPreparation := by
  unfold pumpPreparation
  split
  · exact Kept.refl h
  · rename_i worker hworker
    have hwf := h.pipeline.worker worker hworker
    have hdrained : Moved s { s with worker := some { worker with outputs := [] } } := by
      refine h.pipeline.withWorker hworker s.pendingPlotAppends
        ⟨hwf.loads, hwf.host, hwf.stream, hwf.batch⟩ ?_ (fun _ => .inr) id rfl rfl (fun _ => rfl)
      intro i hi
      unfold OfflineWorker.events at hi
      rw [List.filterMap_nil, List.append_nil] at hi
      exact List.mem_append_left _ hi
    have hkept := h.moved hdrained
    split
    · unfold finishPreparation
      split
      · have hcleared := hkept.orderly.moved
          (hkept.orderly.pipeline.withAppends [] fun _ hmem => nomatch hmem)
        exact (hkept.trans hcleared).trans (hcleared.orderly.modes _ _ _ _ _ _ _ _ _)
      · exact hkept.trans (hkept.orderly.modes _ _ _ _ _ _ _ _ _)
    · exact hkept

theorem pumpOutputs_kept (flush : Flush) (h : s.Orderly) : Kept s (s.pumpOutputs flush) := by
  unfold pumpOutputs
  split
  · exact Kept.refl h
  · have hflushed := h.moved (flush_moved flush h.pipeline)
    unfold noteCompletedInputs
    split
    · exact hflushed.trans (hflushed.orderly.modes _ _ _ _ _ _ _ _ _)
    · exact hflushed

theorem afterLoop_kept (choice : DrainChoice) {result : RawCaptureReplay × Bool}
    (h : Kept s result.1) : Kept s (afterLoop choice result) := by
  unfold afterLoop
  split
  · have hdraining := h.orderly.modes false result.1.targetEventIndex result.1.completedLuaInputs
      result.1.resumeAfterSeek result.1.pacingAfterSeek .draining result.1.pacing
      result.1.preparation result.1.rebuilding
    exact (h.trans hdraining).trans (drainRawCaptureReplay_kept choice hdraining.orderly)
  · exact h

/-- **Pumping keeps the order.** -/
theorem pumpRawCaptureReplay_kept (choice : PumpChoice) (h : s.Orderly)
    (hload : s.pumps → .load ∉ s.waiting) : Kept s (s.pumpRawCaptureReplay choice) := by
  unfold pumpRawCaptureReplay
  split
  · exact Kept.refl h
  split
  · exact pumpPreparation_kept h
  rename_i hpreparing
  split
  · exact drainRawCaptureReplay_kept choice.drain h
  rename_i hdraining
  have hout := pumpOutputs_kept choice.flush h
  obtain ⟨hsame, -⟩ := pumpOutputs_same choice.flush s
  unfold pumpPlaying
  split
  · exact hout
  · rename_i hplaying
    rw [not_or, not_or, hsame.phase, hsame.playing, Bool.not_eq_false] at hplaying
    have hloaded := hload ⟨hpreparing, hdraining, hplaying.2.1, hplaying.1⟩
    have hrunning := hout.orderly.modes (s.pumpOutputs choice.flush).playing
      (s.pumpOutputs choice.flush).targetEventIndex (s.pumpOutputs choice.flush).completedLuaInputs
      (s.pumpOutputs choice.flush).resumeAfterSeek (s.pumpOutputs choice.flush).pacingAfterSeek
      .replaying (s.pumpOutputs choice.flush).pacing (s.pumpOutputs choice.flush).preparation
      (s.pumpOutputs choice.flush).rebuilding
    have hloop := pumpLoop_kept choice.rounds 0 0 hrunning.orderly
      fun hmem => hloaded (hout.load (hrunning.load hmem))
    exact afterLoop_kept choice.drain ((hout.trans hrunning).trans hloop)

/-! ### Seeking and stepping -/

/-- A timeline from its start, with a worker that has at most the protocol to load. -/
theorem Orderly.fresh (hindex : s.eventIndex = 0) (hoffset : s.legacyByteOffset = 0)
    (hsubmitted : s.submitted = []) (hdelivered : s.delivered = []) (hposted : s.posted = [])
    (hdropped : s.dropped = []) (happends : s.pendingPlotAppends.filterMap id = [])
    (hworker : ∀ worker ∈ s.worker, worker = { commands := [.load] } ∨ worker = {})
    (hbrowse : s.browses → s.worker = none) (heffects : ∀ effect ∈ s.effects, effect.InOrder) :
    s.Orderly := by
  have hnone : s.workerEvents = [] ∧ s.profiles = [] ∧ s.profileResults = [] := by
    rw [workerEvents_eq, profiles, profileResults]
    cases hsome : s.worker with
    | none => exact ⟨rfl, rfl, rfl⟩
    | some worker =>
      obtain rfl | rfl := hworker worker hsome
      · exact ⟨rfl, rfl, rfl⟩
      · exact ⟨rfl, rfl, rfl⟩
  obtain ⟨hevents, hprofiles, hresults⟩ := hnone
  have hunapplied : s.unapplied = [] := by
    rw [unapplied, hevents, happends, hdropped]
    rfl
  refine ⟨⟨?_, ?_, fun hne => absurd hoffset hne⟩, fun hbrowses => ⟨hbrowse hbrowses, hunapplied⟩,
    hdropped, ?_, fun _ => hevents, ?_, ?_, ?_, ?_, ?_, heffects⟩
  · rw [hsubmitted, hindex]
    rfl
  · rw [hdelivered, hindex, hoffset]
    rfl
  · intro worker hmem
    obtain rfl | rfl := hworker worker hmem
    · refine ⟨List.not_mem_nil, (fun hsome => nomatch hsome), (fun hsome => nomatch hsome), ?_⟩
      exact fun _ _ heq => nomatch heq
    · exact ⟨List.not_mem_nil, fun _ => List.not_mem_nil, fun _ => rfl, fun _ _ heq => nomatch heq⟩
  · rw [hposted]
    exact fun _ hmem => nomatch hmem
  · rw [hprofiles]
    exact List.Pairwise.nil
  · rw [hresults]
    exact fun _ hmem => nomatch hmem
  · rw [hprofiles]
    exact fun _ hmem => nomatch hmem
  · rw [hprofiles]
    exact fun _ hmem => nomatch hmem

theorem seekRawCaptureReplay_orderly (eventIndex : ℕ) (start : PreparationStart) (h : s.Orderly) :
    (s.seekRawCaptureReplay eventIndex start).Orderly := by
  have happends : (s.pendingPlotAppends.map fun _ => (none : Option ℕ)).filterMap id = [] := by
    rw [List.filterMap_eq_nil_iff]
    intro append hmem
    obtain ⟨-, -, rfl⟩ := List.mem_map.mp hmem
    rfl
  unfold seekRawCaptureReplay
  split
  · exact h
  split
  · exact Orderly.fresh rfl rfl rfl rfl rfl rfl rfl (fun _ hmem => nomatch hmem) (fun _ => rfl)
      h.pipeline.effects
  · rename_i hbrowse
    cases start with
    | started =>
      refine Orderly.fresh rfl rfl rfl rfl rfl rfl happends ?_ (fun hbrowses => absurd hbrowses hbrowse)
        h.pipeline.effects
      intro worker hmem
      cases hmem
      exact .inl rfl
    | refused workerLeft =>
      refine Orderly.fresh rfl rfl rfl rfl rfl rfl happends ?_ (fun hbrowses => absurd hbrowses hbrowse)
        h.pipeline.effects
      cases workerLeft with
      | false => exact fun _ hmem => nomatch hmem
      | true =>
        intro worker hmem
        cases hmem
        exact .inr rfl

theorem playRawCaptureReplay_orderly (start : PreparationStart) (h : s.Orderly) :
    (s.playRawCaptureReplay start).Orderly := by
  have hseek := seekRawCaptureReplay_orderly 0 start h
  unfold playRawCaptureReplay
  split
  · exact h
  split
  · split
    · exact hseek
    · exact (hseek.modes _ _ _ _ _ _ _ _ _).orderly
  · exact (h.modes _ _ _ _ _ _ _ _ _).orderly

theorem stepRawCaptureReplay_orderly (choice : EventChoice) (h : s.Orderly)
    (hready : s.phase ≠ .preparing → ∀ event ∈ s.events[s.eventIndex]?, s.Ready event) :
    (s.stepRawCaptureReplay choice).Orderly := by
  unfold stepRawCaptureReplay
  split
  · exact h
  · rename_i hnot
    rw [not_or] at hnot
    have hpaused := h.modes false s.targetEventIndex s.completedLuaInputs s.resumeAfterSeek
      s.pacingAfterSeek s.phase s.pacing s.preparation s.rebuilding
    have hkept := replayRawCaptureEventAt_kept choice hpaused.orderly (hready hnot.2)
    unfold afterStep
    split
    · exact (hkept.orderly.modes _ _ _ _ _ _ _ _ _).orderly
    · exact hkept.orderly

/-! ### Runs -/

/-- One step of a run that keeps the order. -/
theorem Orderly.replayStep (h : s.Orderly) {step : ReplayStep} (hstep : s.KeepsOrder step) :
    (s.replayStep step).Orderly := by
  cases step with
  | worker move => exact (h.moved (workerStep_moved h.pipeline move)).orderly
  | appends kept added =>
    refine (h.moved (h.pipeline.withAppends _ fun i hi => ?_)).orderly
    obtain hmem | hmem := List.mem_append.mp hi
    · exact keepMarked_subset kept _ hmem
    · cases (List.mem_replicate.mp hmem).2
  | pump choice => exact (pumpRawCaptureReplay_kept choice h hstep).orderly
  | play start => exact playRawCaptureReplay_orderly start h
  | pause => exact (h.modes _ _ _ _ _ _ _ _ _).orderly
  | step choice => exact stepRawCaptureReplay_orderly choice h hstep
  | seek eventIndex start => exact seekRawCaptureReplay_orderly eventIndex start h

theorem Orderly.run (h : s.Orderly) (steps : List ReplayStep) (hsteps : RunKeepsOrder s steps) :
    (s.run steps).Orderly := by
  induction steps generalizing s with
  | nil => exact h
  | cons step steps ih => exact ih (h.replayStep hsteps.1) hsteps.2

theorem loadRawCaptureReplayTimeline_orderly (events : List RawCaptureEvent)
    (processing : OfflineReplayProcessing) (pacing : OfflineReplayPacing) :
    (loadRawCaptureReplayTimeline events processing pacing).Orderly := by
  unfold loadRawCaptureReplayTimeline
  split
  · exact Orderly.fresh rfl rfl rfl rfl rfl rfl rfl (fun _ hmem => nomatch hmem) (fun _ => rfl)
      (fun _ hmem => nomatch hmem)
  · rename_i hne
    refine Orderly.fresh rfl rfl rfl rfl rfl rfl rfl ?_ (fun hbrowses => absurd hbrowses hne)
      (fun _ hmem => nomatch hmem)
    intro worker hmem
    cases hmem
    exact .inl rfl

/-- **A replay keeps the order of its timeline**, in every run whose pumps find the protocol
loaded and whose single steps find their event ready. -/
theorem replay_ordered (events : List RawCaptureEvent) (processing : OfflineReplayProcessing)
    (pacing : OfflineReplayPacing) (steps : List ReplayStep)
    (h : RunKeepsOrder (loadRawCaptureReplayTimeline events processing pacing) steps) :
    ((loadRawCaptureReplayTimeline events processing pacing).run steps).Ordered := by
  have horderly := (loadRawCaptureReplayTimeline_orderly events processing pacing).run steps h
  exact ⟨horderly.position.submitted, horderly.position.delivered, horderly.pipeline.effects⟩

/-- Bytes and then a plot setup. -/
def setupAfterBytes : List RawCaptureEvent := [{ bytes := [1] }, { type := .plotSetup }]

/-- The worker runs one command, and what it puts out. -/
def workerTurn (plotAppends : Option ℕ) : List ReplayStep :=
  [.worker .take, .worker (.execute true none plotAppends), .worker .publish, .worker .finish]

/-- Single steps, with the outputs applied between them. -/
def steppedInOrder : List ReplayStep :=
  workerTurn none ++ [.pump {}, .step {}] ++ workerTurn (some 1) ++
    [.pump { flush := { batches := [([], [])] } }, .step {}]

theorem steppedInOrder_ordered :
    ((loadRawCaptureReplayTimeline setupAfterBytes .currentProtocol .originalTimeline).run
      steppedInOrder).Ordered := by
  refine replay_ordered setupAfterBytes .currentProtocol .originalTimeline steppedInOrder
    ⟨trivial, trivial, trivial, trivial, (fun hpumps => absurd rfl hpumps.1), fun _ event hevent => ?_,
      trivial, trivial, trivial, trivial, (fun hpumps => Bool.noConfusion hpumps.2.2.2),
      fun _ event hevent => ?_, trivial⟩
  · cases hevent
    exact ⟨fun _ _ => ⟨rfl, List.not_mem_nil⟩, fun _ => rfl⟩
  · cases hevent
    exact ⟨fun _ _ => ⟨rfl, List.not_mem_nil⟩, fun _ => rfl⟩

/-- Two single steps apply a plot setup ahead of the outputs of the bytes before it. -/
theorem stepped_out_of_order :
    ¬ ∀ (events : List RawCaptureEvent) (processing : OfflineReplayProcessing)
        (pacing : OfflineReplayPacing) (steps : List ReplayStep),
        ((loadRawCaptureReplayTimeline events processing pacing).run steps).Ordered := by
  intro hall
  have hordered := hall setupAfterBytes .currentProtocol .originalTimeline
    (workerTurn none ++ [.pump {}, .step {}, .step {}])
  have heffect := hordered.effects { event := 1, unapplied := [0], posted := [0] } List.mem_cons_self
  exact heffect.1 0 List.mem_cons_self Nat.zero_lt_one

end RawCaptureReplay

end ProtoScope.App
