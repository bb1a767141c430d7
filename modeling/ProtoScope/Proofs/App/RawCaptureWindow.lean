/-
The raw capture always holds the last bytes, with everything that was in force for them.

`bytesInForce` gives each byte the profiles and the plot setup that the control events
before it have left.  Trimming drops as many of these annotated bytes as it cuts, no more:
along the loop the synthetic prefix stands for the control events that were folded away, so
what is kept reads on from the same state.  A run only appends and trims.
-/
import ProtoScope.App.RawCapture

namespace ProtoScope.App

open ProtoScope.Data (Text text)
open ProtoScope.Plot

/-! ### Bytes in force along lists of events -/

def InForce.applyAll (inForce : InForce) (events : List RawCaptureEvent) : InForce :=
  events.foldl InForce.apply inForce

theorem InForce.applyAll_append (inForce : InForce) (first second : List RawCaptureEvent) :
    inForce.applyAll (first ++ second) = (inForce.applyAll first).applyAll second :=
  List.foldl_append

theorem bytesInForce_append (inForce : InForce) (first second : List RawCaptureEvent) :
    bytesInForce inForce (first ++ second) =
      bytesInForce inForce first ++ bytesInForce (inForce.applyAll first) second := by
  induction first generalizing inForce with
  | nil => rfl
  | cons event first ih =>
    show eventBytesInForce inForce event ++ bytesInForce (inForce.apply event) (first ++ second) =
      (eventBytesInForce inForce event ++ bytesInForce (inForce.apply event) first) ++ _
    rw [ih, List.append_assoc]
    rfl

theorem bytesInForce_singleton (inForce : InForce) (event : RawCaptureEvent) :
    bytesInForce inForce [event] = eventBytesInForce inForce event :=
  List.append_nil _

/-- A kind of events that can be told by their type. -/
theorem bytesOf_append (kind : RawCaptureEvent → Bool) (first second : List RawCaptureEvent) :
    bytesOf kind (first ++ second) = bytesOf kind first ++ bytesOf kind second := by
  unfold bytesOf
  rw [List.filter_append, List.flatMap_append]

theorem map_byte_bytesInForce (inForce : InForce) (events : List RawCaptureEvent) :
    (bytesInForce inForce events).map ByteInForce.byte = bytesOf isBytesEvent events := by
  induction events generalizing inForce with
  | nil => rfl
  | cons event events ih =>
    show (eventBytesInForce inForce event ++ _).map _ = _
    rw [List.map_append, ih]
    unfold eventBytesInForce bytesOf
    by_cases h : isBytesEvent event = true
    · rw [if_pos h, List.filter_cons_of_pos h, List.flatMap_cons, List.map_map]
      exact congrArg (· ++ _) (List.map_id _)
    · rw [if_neg h, List.filter_cons_of_neg h]
      rfl

theorem length_bytesInForce (inForce : InForce) (events : List RawCaptureEvent) :
    (bytesInForce inForce events).length = (bytesOf isBytesEvent events).length := by
  rw [← map_byte_bytesInForce inForce, List.length_map]

variable {event : RawCaptureEvent} {events done : List RawCaptureEvent} {s : TrimState}
  {keepStart : ℕ}

theorem isBytesEvent_iff :
    isBytesEvent event = true ↔ event.type = .rxBytes ∨ event.type = .txBytes := by
  unfold isBytesEvent
  simp

theorem InForce.apply_of_bytes (inForce : InForce) (h : isBytesEvent event = true) :
    inForce.apply event = inForce := by
  unfold InForce.apply
  obtain h | h := isBytesEvent_iff.mp h
  · rw [h]
  · rw [h]

theorem InForce.apply_profileSet (inForce : InForce) (h : event.type = .profileSet) :
    inForce.apply event =
      { inForce with
        profiles := fun name =>
          if name = event.profile.frameName then some event.profile else inForce.profiles name } := by
  unfold InForce.apply
  rw [h]

theorem InForce.apply_profileClear (inForce : InForce) (h : event.type = .profileClear) :
    inForce.apply event =
      { inForce with
        profiles := fun name =>
          if event.profile.frameName = [] ∨ name = event.profile.frameName then Option.none
          else inForce.profiles name } := by
  unfold InForce.apply
  rw [h]

theorem InForce.apply_plotSetup (inForce : InForce) (h : event.type = .plotSetup) :
    inForce.apply event = { inForce with plotSetup := some event.plotSetup } := by
  unfold InForce.apply
  rw [h]

theorem eventBytesInForce_of_control (inForce : InForce) (h : isBytesEvent event = false) :
    eventBytesInForce inForce event = [] :=
  if_neg (by rw [h]; exact Bool.false_ne_true)

/-! ### The synthetic prefix -/

/-- The prefix of the loop: profile settings, then a plot setup. -/
structure TrimState.Prefixed (s : TrimState) : Prop where
  profiles : ∀ event ∈ s.activeProfiles, event.type = .profileSet
  plotSetup : ∀ event ∈ s.activePlotSetup, event.type = .plotSetup

/-- Settings of profiles change a frame to what the last of them says. -/
theorem applyAll_profiles_congr (h : ∀ event ∈ events, event.type = .profileSet)
    {first second : InForce} {name : Text} (hsame : first.profiles name = second.profiles name) :
    (first.applyAll events).profiles name = (second.applyAll events).profiles name := by
  induction events generalizing first second with
  | nil => exact hsame
  | cons event events ih =>
    have hevent := h event List.mem_cons_self
    refine ih (fun other hother => h other (List.mem_cons_of_mem _ hother)) ?_
    rw [first.apply_profileSet hevent, second.apply_profileSet hevent]
    dsimp only
    rw [hsame]

theorem applyAll_profiles_filter (h : ∀ event ∈ events, event.type = .profileSet)
    (inForce : InForce) (frame name : Text) :
    (inForce.applyAll (events.filter (fun item => item.profile.frameName ≠ frame))).profiles name =
      if name = frame then inForce.profiles name else (inForce.applyAll events).profiles name := by
  induction events generalizing inForce with
  | nil =>
    split
    · rfl
    · rfl
  | cons event events ih =>
    have hevent := h event List.mem_cons_self
    have hevents : ∀ other ∈ events, other.type = .profileSet :=
      fun other hother => h other (List.mem_cons_of_mem _ hother)
    have hset : (inForce.apply event).profiles name =
        if name = event.profile.frameName then some event.profile else inForce.profiles name := by
      rw [inForce.apply_profileSet hevent]
    by_cases hframe : event.profile.frameName = frame
    · rw [List.filter_cons_of_neg (by simpa using hframe), ih hevents]
      split
      · rfl
      · rename_i hname
        apply applyAll_profiles_congr hevents
        rw [hset, if_neg (by rw [hframe]; exact hname)]
    · rw [List.filter_cons_of_pos (by simpa using hframe)]
      show ((inForce.apply event).applyAll _).profiles name = _
      rw [ih hevents]
      split
      · rename_i hname
        rw [hset, if_neg (by rw [hname]; exact Ne.symm hframe)]
      · rfl

theorem applyAll_profiles_plotSetup (h : ∀ event ∈ events, event.type = .profileSet)
    (inForce : InForce) : (inForce.applyAll events).plotSetup = inForce.plotSetup := by
  induction events generalizing inForce with
  | nil => rfl
  | cons event events ih =>
    refine (ih (fun other hother => h other (List.mem_cons_of_mem _ hother)) _).trans ?_
    rw [inForce.apply_profileSet (h event List.mem_cons_self)]

theorem profileSet_of_mem_applyActive (h : ∀ event ∈ events, event.type = .profileSet) :
    ∀ other ∈ applyActiveRawProfileEvent events event, other.type = .profileSet := by
  intro other hother
  unfold applyActiveRawProfileEvent at hother
  split at hother
  · cases hother
  · obtain hmem | hmem := List.mem_append.mp hother
    · exact h other (List.mem_of_mem_filter hmem)
    · split at hmem
      · rename_i hset
        rw [List.mem_singleton.mp hmem]
        exact hset
      · cases hmem

/-- Folding a profile event into the settings is applying it after them. -/
theorem applyAll_applyActive (h : ∀ event ∈ events, event.type = .profileSet)
    (htype : event.type = .profileSet ∨ event.type = .profileClear) :
    (InForce.none.applyAll (applyActiveRawProfileEvent events event)).profiles =
      ((InForce.none.applyAll events).apply event).profiles := by
  funext name
  unfold applyActiveRawProfileEvent
  obtain hset | hclear := htype
  · rw [if_neg (by rw [hset]; exact fun hand => nomatch hand.1), if_pos hset,
      InForce.applyAll_append, InForce.apply_profileSet _ hset]
    show ((InForce.none.applyAll _).apply event).profiles name = _
    rw [InForce.apply_profileSet _ hset]
    dsimp only
    rw [applyAll_profiles_filter h]
    split
    · rfl
    · rfl
  · rw [InForce.apply_profileClear _ hclear]
    dsimp only
    by_cases hall : event.profile.frameName = []
    · rw [if_pos ⟨hclear, hall⟩, if_pos (.inl hall)]
      rfl
    · rw [if_neg (fun hand => hall hand.2), if_neg (by rw [hclear]; exact fun heq => nomatch heq),
        List.append_nil, applyAll_profiles_filter h]
      by_cases hname : name = event.profile.frameName
      · rw [if_pos hname, if_pos (.inr hname)]
        rfl
      · rw [if_neg hname, if_neg (not_or.mpr ⟨hall, hname⟩)]

/-- The prefix alone. -/
theorem applyAll_prefix (h : s.Prefixed) :
    InForce.none.applyAll (s.activeProfiles ++ s.activePlotSetup.toList) =
      { profiles := (InForce.none.applyAll s.activeProfiles).profiles
        plotSetup := s.activePlotSetup.map RawCaptureEvent.plotSetup } := by
  rw [InForce.applyAll_append]
  have hplotSetup := applyAll_profiles_plotSetup h.profiles InForce.none
  match hsetup : s.activePlotSetup with
  | none => exact InForce.ext rfl hplotSetup
  | some setup =>
    show (InForce.none.applyAll s.activeProfiles).apply setup = _
    rw [InForce.apply_plotSetup _ (h.plotSetup setup hsetup)]
    rfl

theorem bytesInForce_of_control (h : ∀ event ∈ events, isBytesEvent event = false)
    (inForce : InForce) : bytesInForce inForce events = [] := by
  induction events generalizing inForce with
  | nil => rfl
  | cons event events ih =>
    show eventBytesInForce inForce event ++ bytesInForce (inForce.apply event) events = []
    rw [eventBytesInForce_of_control _ (h event List.mem_cons_self),
      ih fun other hother => h other (List.mem_cons_of_mem _ hother)]
    rfl

theorem bytesInForce_prefix (h : s.Prefixed) :
    bytesInForce InForce.none (s.activeProfiles ++ s.activePlotSetup.toList) = [] := by
  apply bytesInForce_of_control
  intro event hevent
  unfold isBytesEvent
  obtain hmem | hmem := List.mem_append.mp hevent
  · rw [h.profiles event hmem]
    rfl
  · rw [h.plotSetup event (Option.mem_toList.mp hmem)]
    rfl

/-! ### The loop -/

/-- The state of the loop after some events. -/
structure TrimState.Follows (keepStart : ℕ) (s : TrimState) (done : List RawCaptureEvent) : Prop where
  prefixed : s.Prefixed
  cursor : s.rxCursor = (bytesInForce InForce.none done).length
  before : s.rxCursor < keepStart → s.keptEvents = []
  inForce : InForce.none.applyAll s.activeEvents = InForce.none.applyAll done
  kept : bytesInForce InForce.none s.activeEvents = (bytesInForce InForce.none done).drop keepStart

theorem TrimState.Follows.start (keepStart : ℕ) : TrimState.Follows keepStart {} [] where
  prefixed := ⟨(fun _ h => nomatch h), (fun _ h => nomatch h)⟩
  cursor := rfl
  before := fun _ => rfl
  inForce := rfl
  kept := List.drop_nil.symm

theorem TrimState.Follows.push (h : s.Follows keepStart done) (event : RawCaptureEvent) :
    InForce.none.applyAll (s.activeEvents ++ [event]) = InForce.none.applyAll (done ++ [event]) ∧
      bytesInForce InForce.none (s.activeEvents ++ [event]) =
        (bytesInForce InForce.none done).drop keepStart ++
          eventBytesInForce (InForce.none.applyAll done) event := by
  constructor
  · rw [InForce.applyAll_append, InForce.applyAll_append, h.inForce]
  · rw [bytesInForce_append, h.kept, h.inForce, bytesInForce_singleton]

theorem bytesInForce_push (done : List RawCaptureEvent) (event : RawCaptureEvent) :
    bytesInForce InForce.none (done ++ [event]) =
      bytesInForce InForce.none done ++ eventBytesInForce (InForce.none.applyAll done) event := by
  rw [bytesInForce_append, bytesInForce_singleton]

theorem TrimState.Follows.control (h : s.Follows keepStart done)
    (hcontrol : isBytesEvent event = false) :
    (trimControl keepStart s event).Follows keepStart (done ++ [event]) := by
  have hbytes := eventBytesInForce_of_control (InForce.none.applyAll done) hcontrol
  have hsame : bytesInForce InForce.none (done ++ [event]) = bytesInForce InForce.none done := by
    rw [bytesInForce_push, hbytes, List.append_nil]
  have htypes : event.type ≠ .rxBytes ∧ event.type ≠ .txBytes := by
    rw [← not_or, ← isBytesEvent_iff, hcontrol]
    exact Bool.false_ne_true
  by_cases hbefore : s.rxCursor < keepStart
  · have hkept := h.before hbefore
    have hinForce := h.inForce
    have hnone : (bytesInForce InForce.none done).drop keepStart = [] := by
      apply List.drop_eq_nil_of_le
      rw [← h.cursor]
      omega
    unfold TrimState.activeEvents at hinForce
    rw [hkept, List.append_nil, applyAll_prefix h.prefixed] at hinForce
    unfold trimControl
    rw [if_pos hbefore]
    split
    · rename_i hprofile
      have hprefixed : TrimState.Prefixed
          { s with activeProfiles := applyActiveRawProfileEvent s.activeProfiles event } :=
        ⟨profileSet_of_mem_applyActive h.prefixed.profiles, h.prefixed.plotSetup⟩
      refine ⟨hprefixed, by rw [hsame]; exact h.cursor, fun _ => hkept, ?_, ?_⟩
      · unfold TrimState.activeEvents
        rw [hkept, List.append_nil, applyAll_prefix hprefixed, InForce.applyAll_append, ← hinForce]
        apply InForce.ext
        · dsimp only
          rw [applyAll_applyActive h.prefixed.profiles hprofile]
          obtain hset | hclear := hprofile
          · show _ = (InForce.apply _ event).profiles
            rw [InForce.apply_profileSet _ hset, InForce.apply_profileSet _ hset]
          · show _ = (InForce.apply _ event).profiles
            rw [InForce.apply_profileClear _ hclear, InForce.apply_profileClear _ hclear]
        · show _ = (InForce.apply _ event).plotSetup
          obtain hset | hclear := hprofile
          · rw [InForce.apply_profileSet _ hset]
          · rw [InForce.apply_profileClear _ hclear]
      · unfold TrimState.activeEvents
        rw [hkept, List.append_nil, bytesInForce_prefix hprefixed, hsame, hnone]
    · rename_i hprofile
      have hsetup : event.type = .plotSetup := by
        rw [not_or] at hprofile
        generalize event.type = type at *
        cases type with
        | rxBytes => exact absurd rfl htypes.1
        | txBytes => exact absurd rfl htypes.2
        | profileSet => exact absurd rfl hprofile.1
        | profileClear => exact absurd rfl hprofile.2
        | plotSetup => rfl
      rw [if_pos hsetup]
      have hprefixed : TrimState.Prefixed { s with activePlotSetup := some event } :=
        ⟨h.prefixed.profiles, fun other hother => by
          rw [← Option.some.inj (Option.mem_def.mp hother)]
          exact hsetup⟩
      refine ⟨hprefixed, by rw [hsame]; exact h.cursor, fun _ => hkept, ?_, ?_⟩
      · unfold TrimState.activeEvents
        rw [hkept, List.append_nil, applyAll_prefix hprefixed, InForce.applyAll_append, ← hinForce]
        show _ = InForce.apply _ event
        rw [InForce.apply_plotSetup _ hsetup]
        rfl
      · unfold TrimState.activeEvents
        rw [hkept, List.append_nil, bytesInForce_prefix hprefixed, hsame, hnone]
  · unfold trimControl
    rw [if_neg hbefore]
    have hevents : TrimState.activeEvents { s with keptEvents := s.keptEvents ++ [event] } =
        s.activeEvents ++ [event] := (List.append_assoc _ _ _).symm
    obtain ⟨hinForce, hkept⟩ := h.push event
    refine ⟨⟨h.prefixed.profiles, h.prefixed.plotSetup⟩, by rw [hsame]; exact h.cursor, fun hlt => absurd hlt hbefore, ?_, ?_⟩
    · rw [hevents, hinForce]
    · rw [hevents, hkept, hbytes, List.append_nil, hsame]

theorem TrimState.Follows.bytes (h : s.Follows keepStart done) (hbytes : isBytesEvent event = true)
    : (trimBytes keepStart s event).Follows keepStart (done ++ [event]) := by
  have happly : InForce.none.applyAll (done ++ [event]) = InForce.none.applyAll done := by
    rw [InForce.applyAll_append]
    exact InForce.apply_of_bytes _ hbytes
  have hcursor : s.rxCursor + event.bytes.length =
      (bytesInForce InForce.none (done ++ [event])).length := by
    rw [bytesInForce_push, List.length_append, ← h.cursor, eventBytesInForce, if_pos hbytes,
      List.length_map]
  unfold trimBytes
  split
  · rename_i hskip
    refine ⟨⟨h.prefixed.profiles, h.prefixed.plotSetup⟩, hcursor, fun hlt => h.before (by dsimp only at hlt; omega), ?_, ?_⟩
    · rw [happly]
      exact h.inForce
    · show bytesInForce InForce.none s.activeEvents = _
      rw [h.kept]
      obtain hend | hempty := hskip
      · rw [List.drop_eq_nil_of_le (by rw [← h.cursor]; omega),
          List.drop_eq_nil_of_le (by rw [← hcursor]; exact hend)]
      · rw [bytesInForce_push, eventBytesInForce, if_pos hbytes, hempty, List.map_nil,
          List.append_nil]
  · rename_i hskip
    rw [not_or] at hskip
    let kept : RawCaptureEvent := { event with bytes := event.bytes.drop (keepStart - s.rxCursor) }
    have hkeptBytes : isBytesEvent kept = true := hbytes
    have hevents : TrimState.activeEvents
        { s with
          keptEvents := s.keptEvents ++ [kept]
          rxCursor := s.rxCursor + event.bytes.length } = s.activeEvents ++ [kept] :=
      (List.append_assoc _ _ _).symm
    obtain ⟨hinForce, hkept⟩ := h.push kept
    refine ⟨⟨h.prefixed.profiles, h.prefixed.plotSetup⟩, hcursor, fun hlt => ?_, ?_, ?_⟩
    · dsimp only at hlt
      omega
    · rw [hevents, hinForce, happly, InForce.applyAll_append]
      exact InForce.apply_of_bytes _ hkeptBytes
    · rw [hevents, hkept, bytesInForce_push, List.drop_append, ← h.cursor]
      congr 1
      unfold eventBytesInForce
      rw [if_pos hkeptBytes, if_pos hbytes]
      exact List.map_drop

theorem TrimState.Follows.step (h : s.Follows keepStart done) (event : RawCaptureEvent) :
    (trimStep keepStart true s event).Follows keepStart (done ++ [event]) := by
  unfold trimStep
  split
  · rename_i hbytes
    exact h.bytes (isBytesEvent_iff.mpr (hbytes.imp_right And.right))
  · rename_i hcontrol
    apply h.control
    rw [Bool.eq_false_iff]
    intro hbytes
    exact hcontrol ((isBytesEvent_iff.mp hbytes).imp_right fun htx => ⟨rfl, htx⟩)

theorem TrimState.Follows.foldl (events : List RawCaptureEvent) (h : s.Follows keepStart done) :
    (events.foldl (trimStep keepStart true) s).Follows keepStart (done ++ events) := by
  induction events generalizing s done with
  | nil =>
    rw [List.append_nil]
    exact h
  | cons event events ih =>
    rw [List.append_cons]
    exact ih (h.step event)

/-- **Trimming drops the first bytes and nothing that is in force for the others.** -/
theorem bytesInForce_trim (events : List RawCaptureEvent) (keepStart : ℕ) :
    bytesInForce InForce.none (trimRawCaptureEventsToPayloadWindow events keepStart true) =
        (bytesInForce InForce.none events).drop keepStart ∧
      InForce.none.applyAll (trimRawCaptureEventsToPayloadWindow events keepStart true) =
        InForce.none.applyAll events := by
  have h := (TrimState.Follows.start keepStart).foldl events
  exact ⟨h.kept, h.inForce⟩

/-! ### Appending -/

/-- The capture holds the last bytes of the history, up to the limit. -/
structure Captured.Retained (limit : ℕ) (s : Captured) : Prop where
  /-- The bytes received and sent, in order. -/
  bytes : bytesOf isBytesEvent s.state.rawCapture.events =
    (bytesOf isBytesEvent s.history).drop ((bytesOf isBytesEvent s.history).length - limit)
  length : (bytesOf isBytesEvent s.state.rawCapture.events).length =
    min limit (bytesOf isBytesEvent s.history).length
  size : s.state.retainedRawBytes = (bytesOf isBytesEvent s.state.rawCapture.events).length
  payload : s.state.rawCapture.payload = bytesOf isRxEvent s.state.rawCapture.events
  /-- Each of them has the profiles and the plot setup it has in the whole history. -/
  inForce : bytesInForce InForce.none s.state.rawCapture.events =
    (bytesInForce InForce.none s.history).drop ((bytesInForce InForce.none s.history).length - limit)

/-- What appending needs of the capture before; the size of an empty one does not count. -/
structure Captured.Window (limit : ℕ) (s : Captured) : Prop where
  bytes : bytesInForce InForce.none s.state.rawCapture.events =
    (bytesInForce InForce.none s.history).drop ((bytesInForce InForce.none s.history).length - limit)
  inForce : InForce.none.applyAll s.state.rawCapture.events = InForce.none.applyAll s.history
  size : s.state.rawCapture.events ≠ [] →
    s.state.retainedRawBytes = (bytesInForce InForce.none s.state.rawCapture.events).length
  payload : s.state.rawCapture.payload = bytesOf isRxEvent s.state.rawCapture.events

/-- Taking the last ones twice. -/
theorem drop_append_drop {α : Type} (limit : ℕ) (old new : List α) :
    (old.drop (old.length - limit) ++ new).drop
        ((old.drop (old.length - limit) ++ new).length - limit) =
      (old ++ new).drop ((old ++ new).length - limit) := by
  have hkept : old.drop (old.length - limit) ++ new = (old ++ new).drop (old.length - limit) := by
    rw [List.drop_append_of_le_length (Nat.sub_le _ _)]
  rw [hkept, List.drop_drop, List.length_drop]
  congr 1
  rw [List.length_append]
  omega

theorem length_eventBytesInForce (inForce : InForce) (appended : AppendedEvent) :
    (eventBytesInForce inForce appended.event).length = appended.event.bytes.length := by
  unfold eventBytesInForce
  split
  · rw [List.length_map]
  · rename_i hcontrol
    rw [appended.control.resolve_left hcontrol]
    rfl

theorem Captured.Window.pushed {limit : ℕ} {s : Captured} (h : s.Window limit)
    (context : CaptureContext) (appended : AppendedEvent) :
    (pushEvent context appended.event s.state).retainedRawBytes =
        (bytesInForce InForce.none
          (pushEvent context appended.event s.state).rawCapture.events).length ∧
      bytesInForce InForce.none (pushEvent context appended.event s.state).rawCapture.events =
        (bytesInForce InForce.none s.history).drop
            ((bytesInForce InForce.none s.history).length - limit) ++
          eventBytesInForce (InForce.none.applyAll s.history) appended.event ∧
      InForce.none.applyAll (pushEvent context appended.event s.state).rawCapture.events =
        InForce.none.applyAll (s.history ++ [appended.event]) ∧
      (pushEvent context appended.event s.state).rawCapture.payload =
        bytesOf isRxEvent (pushEvent context appended.event s.state).rawCapture.events := by
  have hpushed : bytesInForce InForce.none
      (pushEvent context appended.event s.state).rawCapture.events =
        bytesInForce InForce.none s.state.rawCapture.events ++
          eventBytesInForce (InForce.none.applyAll s.history) appended.event := by
    rw [← h.inForce]
    exact bytesInForce_push _ _
  refine ⟨?_, ?_, ?_, ?_⟩
  · rw [hpushed, List.length_append, length_eventBytesInForce]
    show (if s.state.rawCapture.events = [] then 0 else s.state.retainedRawBytes) + _ = _
    split
    · rename_i hempty
      rw [hempty]
      rfl
    · rename_i hne
      rw [h.size hne]
  · rw [hpushed, h.bytes]
  · rw [InForce.applyAll_append, ← h.inForce]
    exact InForce.applyAll_append _ _ _
  · show (if appended.event.type = .rxBytes then _ else _) = bytesOf isRxEvent (_ ++ [_])
    rw [bytesOf_append, ← h.payload]
    split
    · rename_i hrx
      simp [bytesOf, isRxEvent, hrx]
    · rename_i hrx
      simp [bytesOf, isRxEvent, hrx]

/-- **One append keeps the window.** -/
theorem Captured.Window.append {limit : ℕ} {s : Captured} (h : s.Window limit)
    (context : CaptureContext) (hshown : context.browsing = false) (appended : AppendedEvent) :
    Captured.Window limit
        { state := appendRawCaptureEvent context limit appended.event s.state
          history := s.history ++ [appended.event] } ∧
      (appendRawCaptureEvent context limit appended.event s.state).retainedRawBytes =
        (bytesInForce InForce.none
          (appendRawCaptureEvent context limit appended.event s.state).rawCapture.events).length := by
  obtain ⟨hsize, hbytes, hinForce, hpayload⟩ := h.pushed context appended
  unfold appendRawCaptureEvent
  rw [if_neg (by rw [hshown]; exact Bool.false_ne_true)]
  generalize pushEvent context appended.event s.state = pushed at *
  have hlast := drop_append_drop limit (bytesInForce InForce.none s.history)
    (eventBytesInForce (InForce.none.applyAll s.history) appended.event)
  rw [← hbytes, ← bytesInForce_push, ← hsize] at hlast
  unfold limitEvents
  split
  · rename_i hover
    obtain ⟨htrim, happly⟩ := bytesInForce_trim pushed.rawCapture.events (pushed.retainedRawBytes - limit)
    have hcount : limit = (bytesInForce InForce.none (trimRawCaptureEventsToPayloadWindow
        pushed.rawCapture.events (pushed.retainedRawBytes - limit) true)).length := by
      rw [htrim, List.length_drop, ← hsize]
      omega
    exact ⟨⟨htrim.trans hlast, happly.trans hinForce, fun _ => hcount, rfl⟩, hcount⟩
  · rename_i hunder
    rw [Nat.sub_eq_zero_of_le (Nat.le_of_not_lt hunder), List.drop_zero] at hlast
    exact ⟨⟨hlast, hinForce, fun _ => hsize, hpayload⟩, hsize⟩

theorem length_bytesOf_rx_le (events : List RawCaptureEvent) :
    (bytesOf isRxEvent events).length ≤ (bytesOf isBytesEvent events).length := by
  induction events with
  | nil => exact le_refl _
  | cons event events ih =>
    unfold bytesOf at ih ⊢
    by_cases hrx : isRxEvent event = true
    · have hbytes : isBytesEvent event = true :=
        isBytesEvent_iff.mpr (.inl (by simpa [isRxEvent] using hrx))
      rw [List.filter_cons_of_pos hrx, List.filter_cons_of_pos hbytes, List.flatMap_cons,
        List.flatMap_cons, List.length_append, List.length_append]
      omega
    · rw [List.filter_cons_of_neg hrx]
      by_cases hbytes : isBytesEvent event = true
      · rw [List.filter_cons_of_pos hbytes, List.flatMap_cons, List.length_append]
        omega
      · rw [List.filter_cons_of_neg hbytes]
        exact ih

/-- The older limit has nothing left to do. -/
theorem Captured.Window.limitPayload_eq {limit : ℕ} {s : Captured} (h : s.Window limit) :
    limitPayload limit s.state = s.state := by
  apply if_pos
  have hle := length_bytesOf_rx_le s.state.rawCapture.events
  have hlength := congrArg List.length h.bytes
  rw [length_bytesInForce, List.length_drop] at hlength
  rw [h.payload]
  omega

theorem Captured.Window.retained {limit : ℕ} {s : Captured} (h : s.Window limit)
    (hsize : s.state.retainedRawBytes =
      (bytesInForce InForce.none s.state.rawCapture.events).length) : s.Retained limit := by
  have hmap := congrArg (List.map ByteInForce.byte) h.bytes
  rw [List.map_drop, map_byte_bytesInForce, map_byte_bytesInForce, length_bytesInForce] at hmap
  refine ⟨hmap, ?_, by rw [hsize, length_bytesInForce], h.payload, h.bytes⟩
  rw [hmap, List.length_drop]
  omega

/-! ### Runs -/

/-- The invariant of a run. -/
def Captured.Kept (limit : ℕ) (s : Captured) : Prop :=
  s.Window limit ∧
    s.state.retainedRawBytes = (bytesInForce InForce.none s.state.rawCapture.events).length

theorem Captured.Kept.step {limit : ℕ} {s : Captured} (h : s.Kept limit)
    (step : CaptureContext × CaptureStep) : (s.step limit step).Kept limit := by
  obtain ⟨context, step⟩ := step
  cases step with
  | append appended =>
    by_cases hbrowsing : context.browsing = true
    · have hstate : s.step limit (context, .append appended) = s := by
        show Captured.mk (if context.browsing = true then _ else _)
          (if context.browsing = true then _ else _) = s
        rw [if_pos hbrowsing, if_pos hbrowsing]
      rw [hstate]
      exact h
    · have hstate : s.step limit (context, .append appended) =
          { state := appendRawCaptureEvent context limit appended.event s.state
            history := s.history ++ [appended.event] } := by
        show Captured.mk _ (if context.browsing = true then _ else _) = _
        rw [if_neg hbrowsing]
      rw [hstate]
      exact h.1.append context (Bool.eq_false_iff.mpr hbrowsing) appended
  | live timestampMs endpoint bytes =>
    let before : Captured :=
      { state := { s.state with rawCapture := liveCapture context timestampMs s.state.rawCapture }
        history := if startsOver context s.state.rawCapture then [] else s.history }
    have hbefore : before.Window limit := by
      show Captured.Window limit
        ⟨⟨identifyCapture context timestampMs
          (if startsOver context s.state.rawCapture then {} else s.state.rawCapture), _, _⟩,
          if startsOver context s.state.rawCapture then [] else s.history⟩
      split
      · exact ⟨List.drop_nil.symm, rfl, fun hne => absurd rfl hne, rfl⟩
      · exact ⟨h.1.bytes, h.1.inForce, h.1.size, h.1.payload⟩
    have happended := hbefore.append { context with browsing := false } rfl
      ⟨rxEvent timestampMs endpoint bytes, .inl rfl⟩
    have hstate : s.step limit (context, .live timestampMs endpoint bytes) =
        { state := appendRawCaptureEvent { context with browsing := false } limit
            (rxEvent timestampMs endpoint bytes) before.state
          history := before.history ++ [rxEvent timestampMs endpoint bytes] } := by
      show Captured.mk (limitPayload limit _) _ = _
      exact congrArg (Captured.mk · _) happended.1.limitPayload_eq
    rw [hstate]
    exact happended

/-- **The capture is the window of the last bytes**, with all that is in force for them, after
every append of every run. -/
theorem rawCapture_retained (limit : ℕ) (steps : List (CaptureContext × CaptureStep)) :
    (Captured.run limit steps).Retained limit := by
  have hkept : ∀ (steps : List (CaptureContext × CaptureStep)) (s : Captured), s.Kept limit →
      Captured.Kept limit (steps.foldl (Captured.step limit) s) := by
    intro steps
    induction steps with
    | nil => exact fun _ h => h
    | cons step steps ih => exact fun s h => ih _ (h.step step)
  obtain ⟨hwindow, hsize⟩ :=
    hkept steps {} ⟨⟨List.drop_nil.symm, rfl, fun hne => absurd rfl hne, rfl⟩, rfl⟩
  exact hwindow.retained hsize

end ProtoScope.App
