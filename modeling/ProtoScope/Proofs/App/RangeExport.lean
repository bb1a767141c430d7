/-
Which range exports carry the profiles their bytes were received under.

`bytesUnderProfiles` lists the byte events with the profile map folded from the control
events before each.  An export that keeps every control event up to its last byte keeps the
maps, which is what the export of the records does.  The export of the raw capture drops
the control events before the range, so a map is right only when whatever was active at the
range's start is set or cleared again before its first byte.  It may also lose bytes of the
range: the payload window cuts from the front, and received events without bytes are
dropped with it.
-/
import Mathlib.Algebra.BigOperators.Group.List.Basic
import ProtoScope.App.RangeExport
import ProtoScope.Proofs.App.RawCaptureWindow

namespace ProtoScope.App

open ProtoScope.Data (Text text)
open ProtoScope.Plot

/-! ### The profile map -/

/-- The loop over the events of a capture, on the profiles that are active. -/
def foldProfile (profiles : List RawCaptureEvent) (event : RawCaptureEvent) : List RawCaptureEvent :=
  if event.type = .profileSet ∨ event.type = .profileClear then
    applyActiveRawProfileEvent profiles event
  else profiles

/-- What the active profiles say of a frame. -/
def profileMap (profiles : List RawCaptureEvent) (frameName : Text) :
    Option RawCaptureProfileEventData :=
  (profiles.find? fun item => item.profile.frameName = frameName).map RawCaptureEvent.profile

/-- The byte events, each with the profile map folded from the control events before it. -/
def bytesUnderProfiles (profiles : List RawCaptureEvent) :
    List RawCaptureEvent → List (RawCaptureEvent × (Text → Option RawCaptureProfileEventData))
  | [] => []
  | event :: events =>
    (if isBytesEvent event then [(event, profileMap profiles)] else []) ++
      bytesUnderProfiles (foldProfile profiles event) events

/-- The event sets or clears the profile of the frame. -/
def touches (event : RawCaptureEvent) (frameName : Text) : Prop :=
  event.type = .profileSet ∧ event.profile.frameName = frameName ∨
    event.type = .profileClear ∧
      (event.profile.frameName = [] ∨ event.profile.frameName = frameName)

instance (event : RawCaptureEvent) (frameName : Text) : Decidable (touches event frameName) :=
  inferInstanceAs (Decidable (_ ∨ _))

theorem profileMap_filter (profiles : List RawCaptureEvent) (frame name : Text) :
    profileMap (profiles.filter fun item => item.profile.frameName ≠ frame) name =
      if name = frame then none else profileMap profiles name := by
  unfold profileMap
  rw [List.find?_filter]
  split
  · rename_i hname
    rw [List.find?_eq_none.mpr]
    · rfl
    · intro item _
      simp [hname]
  · rename_i hname
    congr 2
    funext item
    by_cases hitem : item.profile.frameName = name
    · simp [hitem, hname]
    · simp [hitem]

/-- A frame an event touches has what the event says; the others are as before. -/
theorem profileMap_foldProfile (profiles : List RawCaptureEvent) (event : RawCaptureEvent)
    (name : Text) :
    profileMap (foldProfile profiles event) name =
      if touches event name then
        if event.type = .profileSet then some event.profile else none
      else profileMap profiles name := by
  unfold foldProfile applyActiveRawProfileEvent
  by_cases hset : event.type = .profileSet
  · have hclear : event.type ≠ .profileClear := by rw [hset]; exact fun h => by cases h
    rw [if_pos (Or.inl hset), if_neg (fun h => hclear h.1), if_pos hset, if_pos hset]
    have hfilter := profileMap_filter profiles event.profile.frameName name
    by_cases hname : event.profile.frameName = name
    · have htouch : touches event name := Or.inl ⟨hset, hname⟩
      rw [if_pos htouch]
      rw [if_pos hname.symm] at hfilter
      unfold profileMap at hfilter ⊢
      rw [List.find?_append, Option.map_eq_none_iff.mp hfilter, Option.none_or,
        List.find?_cons_of_pos (by simpa using hname)]
      rfl
    · have hother : ¬ touches event name :=
        fun h => h.elim (fun h => hname h.2) fun h => hclear h.1
      rw [if_neg hother]
      rw [if_neg (Ne.symm hname)] at hfilter
      rw [← hfilter]
      unfold profileMap
      rw [List.find?_append, List.find?_cons_of_neg (by simpa using hname), List.find?_nil,
        Option.or_none]
  · by_cases hclear : event.type = .profileClear
    · rw [if_pos (Or.inr hclear), if_neg hset, if_neg hset]
      by_cases hall : event.profile.frameName = []
      · have htouch : touches event name := Or.inr ⟨hclear, Or.inl hall⟩
        rw [if_pos ⟨hclear, hall⟩, if_pos htouch]
        rfl
      · rw [if_neg (fun h => hall h.2), List.append_nil, profileMap_filter]
        by_cases hname : name = event.profile.frameName
        · have htouch : touches event name := Or.inr ⟨hclear, Or.inr hname.symm⟩
          rw [if_pos hname, if_pos htouch]
        · rw [if_neg hname, if_neg]
          rintro (h | h)
          · exact hset h.1
          · exact h.2.elim hall fun h => hname h.symm
    · rw [if_neg (not_or.mpr ⟨hset, hclear⟩), if_neg]
      exact fun h => h.elim (fun h => hset h.1) fun h => hclear h.1

variable {events : List RawCaptureEvent}

theorem profileMap_foldl_of_untouched {name : Text} (h : ∀ event ∈ events, ¬ touches event name)
    (profiles : List RawCaptureEvent) :
    profileMap (events.foldl foldProfile profiles) name = profileMap profiles name := by
  induction events generalizing profiles with
  | nil => rfl
  | cons event events ih =>
    rw [List.foldl_cons, ih (fun other hother => h other (List.mem_cons_of_mem _ hother)),
      profileMap_foldProfile, if_neg (h event List.mem_cons_self)]

/-- Of a frame that an event touches the map before does not count. -/
theorem profileMap_foldl_of_touched {name : Text} (h : ∃ event ∈ events, touches event name)
    (first second : List RawCaptureEvent) :
    profileMap (events.foldl foldProfile first) name =
      profileMap (events.foldl foldProfile second) name := by
  induction events generalizing first second with
  | nil =>
    obtain ⟨event, hevent, -⟩ := h
    cases hevent
  | cons event events ih =>
    rw [List.foldl_cons, List.foldl_cons]
    by_cases hlater : ∃ other ∈ events, touches other name
    · exact ih hlater _ _
    · have hnow : touches event name := by
        obtain ⟨other, hother, htouch⟩ := h
        rcases List.mem_cons.mp hother with rfl | hother
        · exact htouch
        · exact absurd ⟨other, hother, htouch⟩ hlater
      have huntouched : ∀ other ∈ events, ¬ touches other name :=
        fun other hother htouch => hlater ⟨other, hother, htouch⟩
      rw [profileMap_foldl_of_untouched huntouched, profileMap_foldl_of_untouched huntouched,
        profileMap_foldProfile, profileMap_foldProfile, if_pos hnow, if_pos hnow]

/-! ### The bytes under their profiles -/

theorem bytesUnderProfiles_append (profiles : List RawCaptureEvent)
    (first second : List RawCaptureEvent) :
    bytesUnderProfiles profiles (first ++ second) =
      bytesUnderProfiles profiles first ++
        bytesUnderProfiles (first.foldl foldProfile profiles) second := by
  induction first generalizing profiles with
  | nil => rfl
  | cons event first ih =>
    rw [List.cons_append, bytesUnderProfiles, bytesUnderProfiles, ih, List.append_assoc]
    rfl

theorem map_fst_bytesUnderProfiles (profiles events : List RawCaptureEvent) :
    (bytesUnderProfiles profiles events).map Prod.fst = events.filter isBytesEvent := by
  induction events generalizing profiles with
  | nil => rfl
  | cons event events ih =>
    rw [bytesUnderProfiles, List.map_append, ih]
    by_cases h : isBytesEvent event = true
    · rw [if_pos h, List.filter_cons_of_pos h]
      rfl
    · rw [if_neg h, List.filter_cons_of_neg h]
      rfl

theorem isBytesEvent_of_mem {profiles : List RawCaptureEvent}
    {entry : RawCaptureEvent × (Text → Option RawCaptureProfileEventData)}
    (h : entry ∈ bytesUnderProfiles profiles events) : isBytesEvent entry.1 = true := by
  have hmem : entry.1 ∈ (bytesUnderProfiles profiles events).map Prod.fst := List.mem_map_of_mem h
  rw [map_fst_bytesUnderProfiles] at hmem
  exact (List.mem_filter.mp hmem).2

theorem bytesUnderProfiles_eq_nil (h : ∀ event ∈ events, isBytesEvent event = false)
    (profiles : List RawCaptureEvent) : bytesUnderProfiles profiles events = [] := by
  rw [← List.map_eq_nil_iff (f := Prod.fst), map_fst_bytesUnderProfiles, List.filter_eq_nil_iff]
  intro event hevent hbytes
  rw [h event hevent] at hbytes
  cases hbytes

/-- Events with bytes do not change the profiles. -/
theorem foldProfile_of_bytes {event : RawCaptureEvent} (h : isBytesEvent event = true)
    (profiles : List RawCaptureEvent) : foldProfile profiles event = profiles := by
  unfold isBytesEvent at h
  unfold foldProfile
  rw [if_neg]
  rintro (hset | hclear)
  · rw [hset] at h
    cases h
  · rw [hclear] at h
    cases h

/-- The maps depend on the active profiles only through their map. -/
theorem bytesUnderProfiles_congr {first second : List RawCaptureEvent}
    (h : profileMap first = profileMap second) (events : List RawCaptureEvent) :
    bytesUnderProfiles first events = bytesUnderProfiles second events := by
  induction events generalizing first second with
  | nil => rfl
  | cons event events ih =>
    rw [bytesUnderProfiles, bytesUnderProfiles, h, ih]
    funext name
    rw [profileMap_foldProfile, profileMap_foldProfile, h]

/-! ### Exporting the records -/

/-- An export that drops only events behind the last byte it keeps keeps the maps. -/
theorem bytesUnderProfiles_filter {keep : RawCaptureEvent → Bool}
    (h : ∀ before event after, events = before ++ event :: after → isBytesEvent event = true → keep event = true → ∀ other ∈ before, isBytesEvent other = false → keep other = true)
    (profiles : List RawCaptureEvent) :
    bytesUnderProfiles profiles (events.filter keep) =
      (bytesUnderProfiles profiles events).filter fun entry => keep entry.1 := by
  induction events generalizing profiles with
  | nil => rfl
  | cons event events ih =>
    have hrest := ih fun before other after hsplit hbytes hkeep control hcontrol =>
      h (event :: before) other after (by rw [hsplit]; rfl) hbytes hkeep control
        (List.mem_cons_of_mem _ hcontrol)
    rw [bytesUnderProfiles, List.filter_append, ← hrest]
    by_cases hkeep : keep event = true
    · rw [List.filter_cons_of_pos hkeep, bytesUnderProfiles]
      congr 1
      split
      · rw [List.filter_cons_of_pos (by simpa using hkeep), List.filter_nil]
      · rfl
    · rw [List.filter_cons_of_neg hkeep]
      by_cases hbytes : isBytesEvent event = true
      · rw [if_pos hbytes, List.filter_cons_of_neg (by simpa using hkeep), List.filter_nil,
          List.nil_append, foldProfile_of_bytes hbytes]
      · -- a control event is only dropped where no byte event is kept behind it
        rw [if_neg hbytes, List.filter_nil, List.nil_append]
        have hnone : ∀ other ∈ events.filter keep, isBytesEvent other = false := by
          intro other hother
          obtain ⟨hmem, hkept⟩ := List.mem_filter.mp hother
          by_contra hc
          rw [Bool.not_eq_false] at hc
          obtain ⟨before, after, hsplit⟩ := List.append_of_mem hmem
          refine hkeep (h (event :: before) other after (by rw [hsplit]; rfl) hc hkept event
            List.mem_cons_self ?_)
          rwa [Bool.not_eq_true] at hbytes
        rw [bytesUnderProfiles_eq_nil hnone, bytesUnderProfiles_eq_nil hnone]

/-- The events of a capture; an old one without events stands for its payload. -/
def completeEvents (capturedAtMs : UInt64) (capture : RawCapture) : List RawCaptureEvent :=
  if capture.events = [] ∧ capture.payload ≠ [] then [payloadEvent capturedAtMs capture.payload]
  else capture.events

/-- The exported events hold all byte events of the range in order, each under the profiles
it has in the complete capture. -/
def KeepsRange (inRange : RawCaptureEvent → Bool) (complete exported : List RawCaptureEvent) : Prop :=
  List.Sublist ((bytesUnderProfiles [] complete).filter fun entry => inRange entry.1)
    (bytesUnderProfiles [] exported)

def inTimestamps (beginMs endMs : UInt64) (event : RawCaptureEvent) : Bool :=
  decide (beginMs ≤ event.timestampMs) && decide (event.timestampMs ≤ endMs)

/-- Time stamps do not go back. -/
def Chronological (events : List RawCaptureEvent) : Prop :=
  events.Pairwise fun first second => first.timestampMs ≤ second.timestampMs

instance (events : List RawCaptureEvent) : Decidable (Chronological events) :=
  inferInstanceAs (Decidable (events.Pairwise _))

theorem chronological_completeEvents {capture : RawCapture} (h : Chronological capture.events)
    (capturedAtMs : UInt64) : Chronological (completeEvents capturedAtMs capture) := by
  unfold completeEvents
  split
  · exact List.pairwise_singleton _ _
  · exact h

theorem skipsRecord_timestamps (matchesLogFilter : RawCaptureEvent → Bool) (beginMs endMs : UInt64)
    (event : RawCaptureEvent) :
    (!skipsRecord matchesLogFilter (.timestamps beginMs endMs) event) =
      (decide (event.timestampMs ≤ endMs) &&
        (!isBytesEvent event || decide (beginMs ≤ event.timestampMs))) := by
  dsimp only [skipsRecord]
  rw [Bool.not_or, Bool.not_and, Bool.and_comm]
  simp only [← decide_not, UInt64.not_lt]

/-- The export of the records keeps the profiles of every range. -/
theorem keepsRange_exportedRecords {matchesLogFilter : RawCaptureEvent → Bool}
    {beginMs endMs : UInt64} {wasFiltered : Bool} {capture : RawCapture} {exported : RecordExport}
    (hsorted : Chronological capture.events)
    (h : exportedRecords matchesLogFilter (.timestamps beginMs endMs) wasFiltered capture =
      .ok exported) :
    KeepsRange (inTimestamps beginMs endMs) (completeEvents capture.capturedAtMs capture)
      exported.events := by
  have hcomplete := chronological_completeEvents hsorted capture.capturedAtMs
  have hevents : exported.events = (completeEvents capture.capturedAtMs capture).filter fun event =>
      !skipsRecord matchesLogFilter (.timestamps beginMs endMs) event := by
    dsimp only [exportedRecords] at h
    split at h
    · cases h
    · dsimp only [exportedRecords.collect] at h
      have hfold : (if capture.events = [] ∧ capture.payload ≠ [] then
          [payloadEvent capture.capturedAtMs capture.payload] else capture.events) =
            completeEvents capture.capturedAtMs capture := rfl
      rw [hfold] at h
      split at h
      · cases h
        rfl
      · cases h
  have hkept : ∀ before event after,
      completeEvents capture.capturedAtMs capture = before ++ event :: after →
      isBytesEvent event = true →
      (!skipsRecord matchesLogFilter (.timestamps beginMs endMs) event) = true →
      ∀ other ∈ before, isBytesEvent other = false →
      (!skipsRecord matchesLogFilter (.timestamps beginMs endMs) other) = true := by
    intro before event after hsplit _ hkeep other hother hcontrol
    rw [skipsRecord_timestamps, Bool.and_eq_true, decide_eq_true_eq] at hkeep ⊢
    have hle : other.timestampMs ≤ event.timestampMs := by
      rw [hsplit, Chronological, List.pairwise_append] at hcomplete
      exact hcomplete.2.2 other hother event List.mem_cons_self
    exact ⟨UInt64.le_trans hle hkeep.1, by rw [hcontrol]; rfl⟩
  have hrange : ∀ entry ∈ bytesUnderProfiles [] (completeEvents capture.capturedAtMs capture),
      inTimestamps beginMs endMs entry.1 =
        !skipsRecord matchesLogFilter (.timestamps beginMs endMs) entry.1 := by
    intro entry hentry
    rw [skipsRecord_timestamps, isBytesEvent_of_mem hentry, inTimestamps, Bool.not_true,
      Bool.false_or, Bool.and_comm]
  rw [KeepsRange, hevents, bytesUnderProfiles_filter hkept, List.filter_congr hrange]

/-! ### Trimming to the payload window -/

/-- A received event without bytes goes with the trimming. -/
def isEmptyRx (event : RawCaptureEvent) : Bool := isRxEvent event && event.bytes.isEmpty

theorem isBytesEvent_of_rx {event : RawCaptureEvent} (h : isRxEvent event = true) :
    isBytesEvent event = true :=
  decide_eq_true (Or.inl (of_decide_eq_true h))

theorem rawCaptureEventRxBytes_cons (event : RawCaptureEvent) (events : List RawCaptureEvent) :
    rawCaptureEventRxBytes (event :: events) =
      (if isRxEvent event then event.bytes.length else 0) + rawCaptureEventRxBytes events := by
  unfold rawCaptureEventRxBytes bytesOf
  by_cases h : isRxEvent event = true
  · rw [List.filter_cons_of_pos h, List.flatMap_cons, List.length_append, if_pos h]
  · rw [List.filter_cons_of_neg h, if_neg h, Nat.zero_add]

theorem length_le_rawCaptureEventRxBytes {event : RawCaptureEvent} (hmem : event ∈ events)
    (hrx : isRxEvent event = true) : event.bytes.length ≤ rawCaptureEventRxBytes events := by
  induction events with
  | nil => cases hmem
  | cons first events ih =>
    rw [rawCaptureEventRxBytes_cons]
    rcases List.mem_cons.mp hmem with rfl | hmem
    · rw [if_pos hrx]
      exact Nat.le_add_right _ _
    · exact (ih hmem).trans (Nat.le_add_left _ _)

section Trim

variable {keepStart : ℕ} {s : TrimState} {event : RawCaptureEvent} {events : List RawCaptureEvent}

theorem trimStep_rx (h : isRxEvent event = true) :
    trimStep keepStart false s event = trimBytes keepStart s event :=
  if_pos (Or.inl (of_decide_eq_true h))

theorem trimStep_other (h : isRxEvent event = false) :
    trimStep keepStart false s event = trimControl keepStart s event :=
  if_neg fun hc => hc.elim (of_decide_eq_false h) fun hc => Bool.false_ne_true hc.1

theorem rxCursor_trimStep :
    (trimStep keepStart false s event).rxCursor =
      s.rxCursor + if isRxEvent event then event.bytes.length else 0 := by
  by_cases h : isRxEvent event = true
  · rw [trimStep_rx h, if_pos h]
    unfold trimBytes
    split <;> rfl
  · rw [trimStep_other (Bool.not_eq_true _ ▸ h), if_neg h]
    unfold trimControl
    split
    · split
      · rfl
      · split <;> rfl
    · rfl

theorem rxCursor_foldl (events : List RawCaptureEvent) (s : TrimState) :
    (events.foldl (trimStep keepStart false) s).rxCursor =
      s.rxCursor + rawCaptureEventRxBytes events := by
  induction events generalizing s with
  | nil => rfl
  | cons event events ih =>
    rw [List.foldl_cons, ih, rxCursor_trimStep, rawCaptureEventRxBytes_cons, Nat.add_assoc]

/-- Behind the cut everything is kept but received events without bytes. -/
theorem activeEvents_foldl_behind (h : keepStart ≤ s.rxCursor) (events : List RawCaptureEvent) :
    (events.foldl (trimStep keepStart false) s).activeEvents =
      s.activeEvents ++ events.filter fun event => !isEmptyRx event := by
  induction events generalizing s with
  | nil => rw [List.filter_nil, List.append_nil]; rfl
  | cons event events ih =>
    have hcursor : keepStart ≤ (trimStep keepStart false s event).rxCursor := by
      rw [rxCursor_trimStep]
      omega
    rw [List.foldl_cons, ih hcursor]
    by_cases hrx : isRxEvent event = true
    · rw [trimStep_rx hrx, trimBytes]
      by_cases hempty : event.bytes = []
      · rw [if_pos (Or.inr hempty), List.filter_cons_of_neg]
        · rfl
        · simp [isEmptyRx, hrx, hempty]
      · have hlength : 0 < event.bytes.length := List.length_pos_of_ne_nil hempty
        have hcut : keepStart - s.rxCursor = 0 := by omega
        rw [if_neg (not_or.mpr ⟨by omega, hempty⟩), hcut, List.drop_zero,
          List.filter_cons_of_pos]
        · unfold TrimState.activeEvents
          simp only [List.append_assoc, List.singleton_append]
        · simp [isEmptyRx, hrx, hempty]
    · rw [trimStep_other (Bool.not_eq_true _ ▸ hrx), trimControl, if_neg (by omega),
        List.filter_cons_of_pos]
      · unfold TrimState.activeEvents
        simp only [List.append_assoc, List.singleton_append]
      · simp [isEmptyRx, hrx]

/-- What is kept has the properties of the events it is kept of, where bytes do not matter. -/
theorem forall_activeEvents_foldl {P : RawCaptureEvent → Prop}
    (hbytes : ∀ event bytes, P event → P { event with bytes := bytes })
    (hs : ∀ event ∈ s.activeEvents, P event) (hevents : ∀ event ∈ events, P event) :
    ∀ event ∈ (events.foldl (trimStep keepStart false) s).activeEvents, P event := by
  induction events generalizing s with
  | nil => exact hs
  | cons event events ih =>
    refine ih ?_ fun other hother => hevents other (List.mem_cons_of_mem _ hother)
    have hevent := hevents event List.mem_cons_self
    have hkept : ∀ {kept : RawCaptureEvent} {cursor : ℕ}, P kept → ∀ other ∈
        TrimState.activeEvents { s with keptEvents := s.keptEvents ++ [kept], rxCursor := cursor },
        P other := by
      intro kept cursor hP other hother
      have hshape : TrimState.activeEvents
          { s with keptEvents := s.keptEvents ++ [kept], rxCursor := cursor } =
            s.activeEvents ++ [kept] := (List.append_assoc _ _ _).symm
      rw [hshape] at hother
      rcases List.mem_append.mp hother with hother | hother
      · exact hs other hother
      · rw [List.mem_singleton.mp hother]
        exact hP
    have hmem : ∀ other ∈ s.activeProfiles, P other := fun other hother =>
      hs other (List.mem_append_left _ (List.mem_append_left _ hother))
    by_cases hrx : isRxEvent event = true
    · rw [trimStep_rx hrx, trimBytes]
      split
      · exact hs
      · exact hkept (hbytes _ _ hevent)
    · rw [trimStep_other (Bool.not_eq_true _ ▸ hrx), trimControl]
      split
      · split
        · intro other hother
          rcases List.mem_append.mp hother with hother | hother
          · rcases List.mem_append.mp hother with hother | hother
            · unfold applyActiveRawProfileEvent at hother
              split at hother
              · cases hother
              · rcases List.mem_append.mp hother with hother | hother
                · exact hmem other (List.mem_of_mem_filter hother)
                · split at hother
                  · rw [List.mem_singleton.mp hother]
                    exact hevent
                  · cases hother
            · exact hs other (List.mem_append_left _ (List.mem_append_right _ hother))
          · exact hs other (List.mem_append_right _ hother)
        · split
          · intro other hother
            rcases List.mem_append.mp hother with hother | hother
            · rcases List.mem_append.mp hother with hother | hother
              · exact hmem other hother
              · cases Option.mem_toList.mp hother
                exact hevent
            · exact hs other (List.mem_append_right _ hother)
          · exact hs
      · exact hkept hevent

/-- The synthetic prefix holds control events only. -/
theorem TrimState.Prefixed.trimStep (h : s.Prefixed) (hcontrol : isRxEvent event = false) :
    (trimStep keepStart false s event).Prefixed := by
  rw [trimStep_other hcontrol, trimControl]
  split
  · split
    · exact ⟨profileSet_of_mem_applyActive h.profiles, h.plotSetup⟩
    · split
      · rename_i hsetup
        exact ⟨h.profiles, fun other hother => by
          rw [← Option.some.inj (Option.mem_def.mp hother)]
          exact hsetup⟩
      · exact h
  · exact ⟨h.profiles, h.plotSetup⟩

theorem TrimState.Prefixed.foldl (h : s.Prefixed) (events : List RawCaptureEvent) :
    (events.foldl (ProtoScope.App.trimStep keepStart false) s).Prefixed := by
  induction events generalizing s with
  | nil => exact h
  | cons event events ih =>
    refine ih ?_
    by_cases hrx : isRxEvent event = true
    · rw [trimStep_rx hrx, trimBytes]
      split <;> exact ⟨h.profiles, h.plotSetup⟩
    · exact h.trimStep (Bool.not_eq_true _ ▸ hrx)

theorem filter_isBytesEvent_activeEvents (h : s.Prefixed) :
    s.activeEvents.filter isBytesEvent = s.keptEvents.filter isBytesEvent := by
  have hnone : (s.activeProfiles ++ s.activePlotSetup.toList).filter isBytesEvent = [] := by
    rw [List.filter_eq_nil_iff]
    intro event hevent hbytes
    rw [isBytesEvent_iff] at hbytes
    rcases List.mem_append.mp hevent with hmem | hmem
    · rw [h.profiles event hmem] at hbytes
      rcases hbytes with hc | hc <;> cases hc
    · rw [h.plotSetup event (Option.mem_toList.mp hmem)] at hbytes
      rcases hbytes with hc | hc <;> cases hc
  unfold TrimState.activeEvents
  rw [List.filter_append, hnone, List.nil_append]

/-! ### What trimming loses of a range -/

variable {within : RawCaptureEvent → Bool}

/-- The byte events of the range, each counted with its bytes and once more. -/
def rangeWeight (within : RawCaptureEvent → Bool) (events : List RawCaptureEvent) : ℕ :=
  (events.map fun event =>
    if isBytesEvent event && within event then event.bytes.length + 1 else 0).sum

theorem rangeWeight_append (first second : List RawCaptureEvent) :
    rangeWeight within (first ++ second) = rangeWeight within first + rangeWeight within second := by
  rw [rangeWeight, List.map_append, List.sum_append]
  rfl

theorem rangeWeight_singleton (event : RawCaptureEvent) :
    rangeWeight within [event] =
      if isBytesEvent event && within event then event.bytes.length + 1 else 0 :=
  List.sum_singleton

theorem rangeWeight_cons (event : RawCaptureEvent) (events : List RawCaptureEvent) :
    rangeWeight within (event :: events) =
      rangeWeight within [event] + rangeWeight within events :=
  rangeWeight_append [event] events

theorem rangeWeight_sublist {first second : List RawCaptureEvent} (h : List.Sublist first second) :
    rangeWeight within first ≤ rangeWeight within second := by
  induction h with
  | slnil => exact Nat.le_refl _
  | @cons first second event _ ih =>
    rw [rangeWeight_cons event second]
    omega
  | @cons_cons first second event _ ih =>
    rw [rangeWeight_cons event first, rangeWeight_cons event second]
    omega

/-- A step keeps no more of the range than the event has. -/
theorem rangeWeight_trimStep (hwithin : ∀ event bytes, within { event with bytes := bytes } = within event) :
    rangeWeight within (trimStep keepStart false s event).keptEvents ≤
      rangeWeight within s.keptEvents + rangeWeight within [event] := by
  by_cases hrx : isRxEvent event = true
  · rw [trimStep_rx hrx, trimBytes]
    split
    · exact Nat.le_add_right _ _
    · dsimp only
      rw [rangeWeight_append, rangeWeight_singleton, rangeWeight_singleton, hwithin]
      have hsame : isBytesEvent { event with bytes := event.bytes.drop (keepStart - s.rxCursor) } =
          isBytesEvent event := rfl
      rw [hsame, List.length_drop]
      split
      · omega
      · exact Nat.le_refl _
  · rw [trimStep_other (Bool.not_eq_true _ ▸ hrx), trimControl]
    split
    · split
      · exact Nat.le_add_right _ _
      · split <;> exact Nat.le_add_right _ _
    · rw [rangeWeight_append]

/-- Before the cut a byte event of the range loses something. -/
theorem rangeWeight_trimStep_before
    (hbefore : s.rxCursor < keepStart) (hbytes : isBytesEvent event = true)
    (hin : within event = true) :
    rangeWeight within (trimStep keepStart false s event).keptEvents <
      rangeWeight within s.keptEvents + rangeWeight within [event] := by
  have hweight : rangeWeight within [event] = event.bytes.length + 1 := by
    rw [rangeWeight_singleton, hbytes, hin]
    rfl
  by_cases hrx : isRxEvent event = true
  · rw [trimStep_rx hrx, trimBytes, hweight]
    split
    · exact Nat.lt_add_of_pos_right (Nat.succ_pos _)
    · rename_i hkept
      have hnonempty : 0 < event.bytes.length := List.length_pos_of_ne_nil (not_or.mp hkept).2
      have hlost : rangeWeight within
          [{ event with bytes := event.bytes.drop (keepStart - s.rxCursor) }] <
            event.bytes.length + 1 := by
        rw [rangeWeight_singleton, List.length_drop]
        split <;> omega
      dsimp only
      rw [rangeWeight_append]
      omega
  · have htype : event.type = .txBytes :=
      (isBytesEvent_iff.mp hbytes).resolve_left fun hc => hrx (decide_eq_true hc)
    rw [trimStep_other (Bool.not_eq_true _ ▸ hrx), trimControl, if_pos hbefore, htype, hweight]
    exact Nat.lt_add_of_pos_right (Nat.succ_pos _)

theorem rangeWeight_foldl
    (hwithin : ∀ event bytes, within { event with bytes := bytes } = within event)
    (events : List RawCaptureEvent) (s : TrimState) :
    rangeWeight within (events.foldl (trimStep keepStart false) s).keptEvents ≤
      rangeWeight within s.keptEvents + rangeWeight within events := by
  induction events generalizing s with
  | nil => exact Nat.le_refl _
  | cons event events ih =>
    have hstep := @rangeWeight_trimStep keepStart s event within hwithin
    have hrest := ih (trimStep keepStart false s event)
    rw [List.foldl_cons, rangeWeight_cons]
    omega

end Trim

/-! ### The events before the range, in it and behind it -/

section Range

variable {early within : RawCaptureEvent → Bool} {events : List RawCaptureEvent}

/-- A range of a chronological capture: what is early comes before what is in the range, and
nothing of the range is behind something that is neither. -/
structure Divides (early within : RawCaptureEvent → Bool) (events : List RawCaptureEvent) : Prop where
  split : events = events.filter early ++ events.filter within ++
    events.filter fun event => !early event && !within event
  disjoint : ∀ event, early event = true → within event = false
  bytes : ∀ event bytes, within { event with bytes := bytes } = within event

theorem eq_filter_append_filter {p : RawCaptureEvent → Bool}
    (h : events.Pairwise fun first second => p second = true → p first = true) :
    events = events.filter p ++ events.filter fun event => !p event := by
  induction events with
  | nil => rfl
  | cons event events ih =>
    obtain ⟨hevent, hevents⟩ := List.pairwise_cons.mp h
    by_cases hp : p event = true
    · rw [List.filter_cons_of_pos hp, List.filter_cons_of_neg (by simpa using hp),
        List.cons_append, ← ih hevents]
    · have hnone : events.filter p = [] :=
        List.filter_eq_nil_iff.mpr fun other hother hc => hp (hevent other hother hc)
      have hall : events.filter (fun event => !p event) = events :=
        List.filter_eq_self.mpr fun other hother => by
          rw [Bool.not_eq_true', Bool.eq_false_iff]
          exact fun hc => hp (hevent other hother hc)
      rw [List.filter_cons_of_neg hp, List.filter_cons_of_pos (by simpa using hp), hnone, hall,
        List.nil_append]

theorem filter_within_early (h : Divides early within events) :
    (events.filter early).filter within = [] := by
  rw [List.filter_eq_nil_iff]
  intro event hevent hc
  rw [h.disjoint event (List.mem_filter.mp hevent).2] at hc
  cases hc

theorem filter_within_late :
    (events.filter fun event => !early event && !within event).filter within = [] := by
  rw [List.filter_eq_nil_iff]
  intro event hevent hc
  have hlate := (List.mem_filter.mp hevent).2
  rw [hc, Bool.not_true, Bool.and_false] at hlate
  cases hlate

theorem filter_bytesUnderProfiles (profiles events : List RawCaptureEvent)
    (h : events.filter within = []) :
    (bytesUnderProfiles profiles events).filter (fun entry => within entry.1) = [] := by
  rw [List.filter_eq_nil_iff]
  intro entry hentry hc
  have hmem : entry.1 ∈ (bytesUnderProfiles profiles events).map Prod.fst :=
    List.mem_map_of_mem hentry
  rw [map_fst_bytesUnderProfiles] at hmem
  exact List.filter_eq_nil_iff.mp h entry.1 (List.mem_of_mem_filter hmem) hc

/-- The bytes of the range in the complete capture, under the profiles active at its start. -/
theorem Divides.complete (h : Divides early within events) :
    (bytesUnderProfiles [] events).filter (fun entry => within entry.1) =
      bytesUnderProfiles ((events.filter early).foldl foldProfile []) (events.filter within) := by
  have hwithin : ∀ entry ∈ bytesUnderProfiles ((events.filter early).foldl foldProfile [])
      (events.filter within), within entry.1 = true := by
    intro entry hentry
    have hmem : entry.1 ∈ (bytesUnderProfiles ((events.filter early).foldl foldProfile [])
        (events.filter within)).map Prod.fst := List.mem_map_of_mem hentry
    rw [map_fst_bytesUnderProfiles] at hmem
    exact (List.mem_filter.mp (List.mem_of_mem_filter hmem)).2
  conv => lhs; rw [h.split]
  rw [bytesUnderProfiles_append, bytesUnderProfiles_append, List.filter_append, List.filter_append,
    filter_bytesUnderProfiles _ _ (filter_within_early h),
    filter_bytesUnderProfiles _ _ filter_within_late, List.nil_append, List.append_nil,
    List.filter_eq_self.mpr hwithin]

/-- Every frame that is active at the range's start is set or cleared again before the first
byte of the range. -/
def Renewed (early within : RawCaptureEvent → Bool) (events : List RawCaptureEvent) : Prop :=
  ∀ name, profileMap ((events.filter early).foldl foldProfile []) name ≠ none →
    ∃ event ∈ (events.filter within).takeWhile (fun event => !isBytesEvent event),
      touches event name

/-- Reading a list of events from two sets of profiles gives the same maps exactly when the
events before its first bytes touch all frames on which they differ. -/
theorem bytesUnderProfiles_eq_iff {inside : List RawCaptureEvent}
    (hbytes : inside.any isBytesEvent = true) (profiles : List RawCaptureEvent) :
    bytesUnderProfiles profiles inside = bytesUnderProfiles [] inside ↔
      ∀ name, profileMap profiles name ≠ none →
        ∃ event ∈ inside.takeWhile (fun event => !isBytesEvent event), touches event name := by
  obtain ⟨first, rest, hdrop⟩ : ∃ first rest,
      inside.dropWhile (fun event => !isBytesEvent event) = first :: rest := by
    rw [← List.ne_nil_iff_exists_cons]
    intro hc
    obtain ⟨event, hevent, hany⟩ := List.any_eq_true.mp hbytes
    have hnone := List.dropWhile_eq_nil_iff.mp hc event hevent
    rw [hany] at hnone
    cases hnone
  have hfirst : isBytesEvent first = true := by
    have hhead := List.head?_dropWhile_not (fun event => !isBytesEvent event) inside
    rw [hdrop] at hhead
    simpa using hhead
  have hlead : ∀ event ∈ inside.takeWhile (fun event => !isBytesEvent event),
      isBytesEvent event = false := fun event hevent => by
    simpa using List.mem_takeWhile_imp hevent
  have hread : ∀ profiles, bytesUnderProfiles profiles inside =
      (first, profileMap ((inside.takeWhile fun event => !isBytesEvent event).foldl foldProfile
        profiles)) :: bytesUnderProfiles ((inside.takeWhile fun event => !isBytesEvent event).foldl
          foldProfile profiles) rest := by
    intro profiles
    conv => lhs; rw [← List.takeWhile_append_dropWhile (p := fun event => !isBytesEvent event)
      (l := inside), hdrop]
    rw [bytesUnderProfiles_append, bytesUnderProfiles_eq_nil hlead, bytesUnderProfiles,
      if_pos hfirst, foldProfile_of_bytes hfirst]
    rfl
  rw [hread profiles, hread []]
  generalize inside.takeWhile (fun event => !isBytesEvent event) = lead
  constructor
  · intro heq name hactive
    by_contra hnone
    have huntouched : ∀ event ∈ lead, ¬ touches event name :=
      fun event hevent htouch => hnone ⟨event, hevent, htouch⟩
    have hmaps := congrFun (congrArg Prod.snd (List.cons.inj heq).1) name
    dsimp only at hmaps
    rw [profileMap_foldl_of_untouched huntouched, profileMap_foldl_of_untouched huntouched] at hmaps
    exact hactive hmaps
  · intro htouched
    have hmaps : profileMap (lead.foldl foldProfile profiles) =
        profileMap (lead.foldl foldProfile []) := by
      funext name
      by_cases htouch : ∃ event ∈ lead, touches event name
      · exact profileMap_foldl_of_touched htouch _ _
      · have huntouched : ∀ event ∈ lead, ¬ touches event name :=
          fun event hevent hc => htouch ⟨event, hevent, hc⟩
        have hinactive : profileMap profiles name = none := by
          by_contra hc
          exact htouch (htouched name hc)
        rw [profileMap_foldl_of_untouched huntouched, profileMap_foldl_of_untouched huntouched,
          hinactive]
        rfl
    rw [hmaps, bytesUnderProfiles_congr hmaps]

/-! ### Exporting the raw capture -/

/-- When an export of the raw capture keeps the range: there are no bytes in it, or the
payload window begins before it, none of its received events is empty, and every frame
active at its start is renewed before its first bytes. -/
def ReachesRange (early within : RawCaptureEvent → Bool) (capture : RawCapture) : Prop :=
  (capture.events.filter within).any isBytesEvent = false ∨
    capture.payload.length ≤ rawCaptureEventRxBytes capture.events ∧
      rawCaptureEventRxBytes capture.events - capture.payload.length ≤
        rawCaptureEventRxBytes (capture.events.filter early) ∧
      (∀ event ∈ capture.events.filter within, isEmptyRx event = false) ∧
      Renewed early within capture.events

theorem bytesUnderProfiles_of_none {inside : List RawCaptureEvent}
    (h : inside.any isBytesEvent = false) (profiles : List RawCaptureEvent) :
    bytesUnderProfiles profiles inside = [] :=
  bytesUnderProfiles_eq_nil (fun event hevent => by
    rw [← Bool.not_eq_true]
    exact List.any_eq_false.mp h event hevent) profiles

/-- What trimming keeps of the range when the cut is not behind its start. -/
theorem filter_trim_of_le (h : Divides early within events) {keepStart : ℕ}
    (hcut : keepStart ≤ rawCaptureEventRxBytes (events.filter early)) :
    (trimRawCaptureEventsToPayloadWindow events keepStart false).filter within =
      (events.filter within).filter fun event => !isEmptyRx event := by
  have hearly : ∀ event ∈ ((events.filter early).foldl (trimStep keepStart false) {}).activeEvents,
      within event = false := by
    refine forall_activeEvents_foldl (fun event bytes hevent => (h.bytes event bytes).trans hevent)
      (fun event hevent => by cases hevent) fun event hevent => ?_
    exact h.disjoint event (List.mem_filter.mp hevent).2
  have hcursor : keepStart ≤ ((events.filter early).foldl (trimStep keepStart false) {}).rxCursor := by
    rw [rxCursor_foldl]
    exact hcut.trans (Nat.le_add_left _ _)
  have hnone : ((events.filter early).foldl (trimStep keepStart false) {}).activeEvents.filter within =
      [] := by
    rw [List.filter_eq_nil_iff]
    intro event hevent hc
    rw [hearly event hevent] at hc
    cases hc
  unfold trimRawCaptureEventsToPayloadWindow
  conv => lhs; rw [h.split, List.append_assoc, List.foldl_append]
  rw [activeEvents_foldl_behind hcursor, List.filter_append, hnone, List.nil_append,
    List.filter_append, List.filter_append]
  have hlate : ((events.filter fun event => !early event && !within event).filter
      fun event => !isEmptyRx event).filter within = [] := by
    rw [List.filter_comm, filter_within_late]
    rfl
  rw [hlate, List.append_nil, List.filter_eq_self]
  exact fun event hevent => (List.mem_filter.mp (List.mem_of_mem_filter hevent)).2

/-- A cut behind the start of a range with bytes loses some of them. -/
theorem rangeWeight_trim_of_lt (h : Divides early within events) {keepStart : ℕ}
    (hcut : rawCaptureEventRxBytes (events.filter early) < keepStart)
    (hbytes : (events.filter within).any isBytesEvent = true) :
    rangeWeight within
        ((trimRawCaptureEventsToPayloadWindow events keepStart false).filter isBytesEvent) <
      rangeWeight within (events.filter within) := by
  obtain ⟨lead, first, rest, hinside, hlead, hfirst⟩ : ∃ lead first rest,
      events.filter within = lead ++ first :: rest ∧ (∀ event ∈ lead, isBytesEvent event = false) ∧
        isBytesEvent first = true := by
    obtain ⟨first, hfirst⟩ : ∃ first, (events.filter within).find? isBytesEvent = some first :=
      Option.isSome_iff_exists.mp (by rwa [List.find?_isSome, ← List.any_eq_true])
    obtain ⟨hsome, lead, rest, hinside, hlead⟩ := List.find?_eq_some_iff_append.mp hfirst
    exact ⟨lead, first, rest, hinside, fun event hevent => by simpa using hlead event hevent, hsome⟩
  have hwithin : within first = true := by
    have hmem : first ∈ events.filter within := by
      rw [hinside]
      exact List.mem_append_right _ List.mem_cons_self
    exact (List.mem_filter.mp hmem).2
  -- the loop reaches the first bytes of the range with nothing of the range kept
  let start := (events.filter early ++ lead).foldl (trimStep keepStart false) {}
  have hrx : rawCaptureEventRxBytes lead = 0 := by
    unfold rawCaptureEventRxBytes bytesOf
    rw [List.filter_eq_nil_iff.mpr fun event hevent hc => ?_]
    · rfl
    · have hc := isBytesEvent_of_rx hc
      rw [hlead event hevent] at hc
      cases hc
  have hcursor : start.rxCursor < keepStart := by
    have hfold := @rxCursor_foldl keepStart (events.filter early ++ lead) {}
    rw [rawCaptureEventRxBytes, bytesOf_append, List.length_append] at hfold
    unfold rawCaptureEventRxBytes at hrx hcut
    show ((events.filter early ++ lead).foldl (trimStep keepStart false) {}).rxCursor < keepStart
    rw [hfold, hrx]
    simpa using hcut
  have hzero : ∀ list : List RawCaptureEvent,
      (∀ event ∈ list, (isBytesEvent event && within event) = false) →
        rangeWeight within list = 0 := by
    intro list hlist
    induction list with
    | nil => rfl
    | cons event list ih =>
      rw [rangeWeight_cons, rangeWeight_singleton, hlist event List.mem_cons_self,
        ih fun other hother => hlist other (List.mem_cons_of_mem _ hother)]
      rfl
  have hstart : rangeWeight within start.keptEvents = 0 := by
    have hfold := @rangeWeight_foldl keepStart within h.bytes (events.filter early ++ lead) {}
    have hnone : rangeWeight within (events.filter early ++ lead) = 0 := by
      refine hzero _ fun event hevent => ?_
      rcases List.mem_append.mp hevent with hevent | hevent
      · rw [h.disjoint event (List.mem_filter.mp hevent).2, Bool.and_false]
      · rw [hlead event hevent, Bool.false_and]
    have hempty : rangeWeight within ({} : TrimState).keptEvents = 0 := rfl
    show rangeWeight within
      ((events.filter early ++ lead).foldl (trimStep keepStart false) ({} : TrimState)).keptEvents = 0
    omega
  have hfirst := @rangeWeight_trimStep_before keepStart start first within hcursor hfirst hwithin
  have hrest := @rangeWeight_foldl keepStart within h.bytes
    (rest ++ events.filter fun event => !early event && !within event)
    (trimStep keepStart false start first)
  have hlate : rangeWeight within (events.filter fun event => !early event && !within event) = 0 := by
    refine hzero _ fun event hevent => ?_
    rw [Bool.eq_false_iff]
    intro hc
    rw [Bool.and_eq_true] at hc
    exact List.filter_eq_nil_iff.mp filter_within_late event hevent hc.2
  have hlead : rangeWeight within lead = 0 :=
    hzero lead fun event hevent => by rw [hlead event hevent, Bool.false_and]
  have hshape : events = (events.filter early ++ lead) ++ (first ::
      (rest ++ events.filter fun event => !early event && !within event)) := by
    conv => lhs; rw [h.split, hinside]
    simp only [List.append_assoc, List.cons_append]
  have hprefixed : TrimState.Prefixed (events.foldl (trimStep keepStart false) {}) :=
    TrimState.Prefixed.foldl ⟨(fun event hc => by cases hc), fun event hc => by cases hc⟩ events
  unfold trimRawCaptureEventsToPayloadWindow
  rw [filter_isBytesEvent_activeEvents hprefixed]
  refine lt_of_le_of_lt (rangeWeight_sublist List.filter_sublist) ?_
  have hrun : events.foldl (trimStep keepStart false) {} =
      (rest ++ events.filter fun event => !early event && !within event).foldl
        (trimStep keepStart false) (trimStep keepStart false start first) := by
    conv => lhs; rw [hshape, List.foldl_append, List.foldl_cons]
  rw [hrun, hinside, rangeWeight_append, rangeWeight_cons, hlead]
  rw [rangeWeight_append, hlate] at hrest
  omega

theorem rangeWeight_filter_bytes (events : List RawCaptureEvent) :
    rangeWeight within (events.filter isBytesEvent) = rangeWeight within events := by
  induction events with
  | nil => rfl
  | cons event events ih =>
    by_cases h : isBytesEvent event = true
    · rw [List.filter_cons_of_pos h, rangeWeight_cons, ih, rangeWeight_cons event events]
    · rw [Bool.not_eq_true] at h
      rw [List.filter_cons_of_neg (by rw [h]; decide), ih, rangeWeight_cons event events,
        rangeWeight_singleton, h]
      exact (Nat.zero_add _).symm

/-- Byte events under profiles that go into others are byte events that do. -/
theorem sublist_of_bytesUnderProfiles {first second left right : List RawCaptureEvent}
    (h : List.Sublist (bytesUnderProfiles first left) (bytesUnderProfiles second right)) :
    List.Sublist (left.filter isBytesEvent) (right.filter isBytesEvent) := by
  have hmap := h.map Prod.fst
  rwa [map_fst_bytesUnderProfiles, map_fst_bytesUnderProfiles] at hmap

variable {capture : RawCapture}

theorem normalize_of_le (hevents : capture.events ≠ [])
    (hlong : capture.payload.length ≤ rawCaptureEventRxBytes capture.events) :
    (normalizeRawCaptureExportWindow capture).events =
      trimRawCaptureEventsToPayloadWindow capture.events
        (rawCaptureEventRxBytes capture.events - capture.payload.length) false := by
  unfold normalizeRawCaptureExportWindow
  rw [if_pos ⟨hevents, hlong⟩]

theorem normalize_of_payload
    (h : ¬ (capture.events ≠ [] ∧ capture.payload.length ≤ rawCaptureEventRxBytes capture.events))
    (hpayload : capture.payload ≠ []) :
    (normalizeRawCaptureExportWindow capture).events =
      [payloadEvent capture.capturedAtMs capture.payload] := by
  unfold normalizeRawCaptureExportWindow
  rw [if_neg h, if_pos hpayload]

theorem capturedAtMs_normalize (capture : RawCapture) :
    (normalizeRawCaptureExportWindow capture).capturedAtMs = capture.capturedAtMs := by
  dsimp only [normalizeRawCaptureExportWindow]
  by_cases hwindow : capture.events ≠ [] ∧
      capture.payload.length ≤ rawCaptureEventRxBytes capture.events
  · rw [if_pos hwindow]
  · rw [if_neg hwindow]
    by_cases hpayload : capture.payload ≠ []
    · rw [if_pos hpayload]
    · rw [if_neg hpayload]

/-- A capture without events is exported as the event it stands for. -/
theorem keepsRange_of_no_events (hevents : capture.events = []) :
    KeepsRange within (completeEvents capture.capturedAtMs capture)
      ((normalizeRawCaptureExportWindow capture).events.filter within) := by
  unfold KeepsRange completeEvents
  by_cases hpayload : capture.payload = []
  · rw [if_neg (fun hc => hc.2 hpayload), hevents]
    exact List.nil_sublist _
  · rw [if_pos ⟨hevents, hpayload⟩, normalize_of_payload (fun hc => hc.1 hevents) hpayload]
    by_cases hwithin : within (payloadEvent capture.capturedAtMs capture.payload) = true
    · rw [List.filter_cons_of_pos hwithin, List.filter_nil]
      exact List.filter_sublist
    · rw [filter_bytesUnderProfiles]
      · exact List.nil_sublist _
      · rw [List.filter_cons_of_neg hwithin, List.filter_nil]

/-- The export of the raw capture keeps a range exactly when it reaches it. -/
theorem keepsRange_iff_reachesRange (h : Divides early within capture.events) :
    KeepsRange within (completeEvents capture.capturedAtMs capture)
        ((normalizeRawCaptureExportWindow capture).events.filter within) ↔
      ReachesRange early within capture := by
  by_cases hevents : capture.events = []
  · refine iff_of_true (keepsRange_of_no_events hevents) (Or.inl ?_)
    rw [hevents]
    rfl
  have hcomplete : completeEvents capture.capturedAtMs capture = capture.events :=
    if_neg fun hc => hevents hc.1
  unfold KeepsRange ReachesRange
  rw [hcomplete, h.complete]
  by_cases hbytes : (capture.events.filter within).any isBytesEvent = true
  swap
  · rw [Bool.not_eq_true] at hbytes
    rw [bytesUnderProfiles_of_none hbytes]
    exact iff_of_true (List.nil_sublist _) (Or.inl hbytes)
  have hsome : ¬ (capture.events.filter within).any isBytesEvent = false := by
    rw [hbytes]
    exact Bool.noConfusion
  rw [or_iff_right hsome]
  by_cases hlong : capture.payload.length ≤ rawCaptureEventRxBytes capture.events
  swap
  · -- the payload is longer than all received bytes, so no event of the range can be it
    refine iff_of_false (fun hsub => hlong ?_) fun hc => hlong hc.1
    have hpayload : capture.payload ≠ [] := fun hc => hlong (by rw [hc]; exact Nat.zero_le _)
    rw [normalize_of_payload (fun hc => hlong hc.2) hpayload] at hsub
    obtain ⟨event, hevent, hbytes⟩ := List.any_eq_true.mp hbytes
    have hmem := (sublist_of_bytesUnderProfiles hsub).subset
      (List.mem_filter.mpr ⟨hevent, hbytes⟩)
    have heq := List.mem_singleton.mp (List.mem_of_mem_filter (List.mem_of_mem_filter hmem))
    have hle := length_le_rawCaptureEventRxBytes (List.mem_of_mem_filter hevent)
      (by rw [heq]; rfl)
    rwa [heq] at hle
  rw [normalize_of_le hevents hlong]
  by_cases hcut : rawCaptureEventRxBytes capture.events - capture.payload.length ≤
      rawCaptureEventRxBytes (capture.events.filter early)
  swap
  · refine iff_of_false (fun hsub => ?_) fun hc => hcut hc.2.1
    have hlost := rangeWeight_trim_of_lt h (Nat.lt_of_not_le hcut) hbytes
    have hkept := @rangeWeight_sublist within _ _ (sublist_of_bytesUnderProfiles hsub)
    have hless := @rangeWeight_sublist within _ _ (List.filter_sublist (p := within)
      (l := (trimRawCaptureEventsToPayloadWindow capture.events
        (rawCaptureEventRxBytes capture.events - capture.payload.length) false).filter isBytesEvent))
    rw [rangeWeight_filter_bytes, List.filter_comm] at hkept
    omega
  rw [filter_trim_of_le h hcut]
  by_cases hempty : ∀ event ∈ capture.events.filter within, isEmptyRx event = false
  swap
  · refine iff_of_false (fun hsub => ?_) fun hc => hempty hc.2.2.1
    push Not at hempty
    obtain ⟨event, hevent, hrx⟩ := hempty
    rw [ne_eq, Bool.not_eq_false] at hrx
    have hbytes : isBytesEvent event = true :=
      isBytesEvent_of_rx (Bool.and_eq_true _ _ ▸ hrx).1
    have hlength := (sublist_of_bytesUnderProfiles hsub).length_le
    have hcomm : ((capture.events.filter within).filter fun event => !isEmptyRx event).filter
        isBytesEvent = ((capture.events.filter within).filter isBytesEvent).filter
          fun event => !isEmptyRx event := List.filter_comm _ _ _
    rw [hcomm] at hlength
    have hdropped : ¬ (!isEmptyRx event) = true := by
      rw [hrx]
      decide
    have hless := List.length_filter_lt_length_iff_exists (p := fun event => !isEmptyRx event).mpr
      ⟨event, List.mem_filter.mpr ⟨hevent, hbytes⟩, hdropped⟩
    omega
  have hall : (capture.events.filter within).filter (fun event => !isEmptyRx event) =
      capture.events.filter within :=
    List.filter_eq_self.mpr fun event hevent => by rw [hempty event hevent]; rfl
  rw [hall]
  have hrenewed := bytesUnderProfiles_eq_iff hbytes ((capture.events.filter early).foldl foldProfile [])
  constructor
  · intro hsub
    refine ⟨hlong, hcut, hempty, hrenewed.mp (hsub.eq_of_length ?_)⟩
    rw [← List.length_map (f := Prod.fst), map_fst_bytesUnderProfiles,
      ← List.length_map (f := Prod.fst), map_fst_bytesUnderProfiles]
  · rintro ⟨-, -, -, hnew⟩
    rw [hrenewed.mpr hnew]

end Range

section Seconds

variable {round : ℚ → ℚ}

theorem elapsedSeconds_mono (hround : Monotone round) (capturedAtMs : UInt64) {first second : UInt64}
    (h : first ≤ second) :
    elapsedSeconds round capturedAtMs first ≤ elapsedSeconds round capturedAtMs second := by
  have hcast : (first.toNat : ℚ) ≤ second.toNat := by exact_mod_cast UInt64.le_iff_toNat_le.mp h
  unfold elapsedSeconds
  exact hround (div_le_div_of_nonneg_right (hround (sub_le_sub_right (hround hcast) _)) (by norm_num))

/-- An event before the range. -/
def isEarly (round : ℚ → ℚ) (capturedAtMs : UInt64) (timeRange : ℚ × ℚ) (event : RawCaptureEvent) :
    Bool :=
  decide (elapsedSeconds round capturedAtMs event.timestampMs < timeRange.1)

theorem divides_of_chronological (hround : Monotone round) (capturedAtMs : UInt64)
    (timeRange : ℚ × ℚ) {events : List RawCaptureEvent} (h : Chronological events) :
    Divides (isEarly round capturedAtMs timeRange) (inTimeRange round capturedAtMs timeRange)
      events := by
  have hdisjoint : ∀ event, isEarly round capturedAtMs timeRange event = true →
      inTimeRange round capturedAtMs timeRange event = false := by
    intro event hearly
    unfold isEarly at hearly
    unfold inTimeRange
    rw [hearly, Bool.true_or]
    rfl
  refine ⟨?_, hdisjoint, fun event bytes => rfl⟩
  have hfirst := @eq_filter_append_filter events (isEarly round capturedAtMs timeRange) (by
    refine h.imp fun {first second} hle hsecond => ?_
    exact decide_eq_true ((elapsedSeconds_mono hround capturedAtMs hle).trans_lt
      (of_decide_eq_true hsecond)))
  -- behind the early events the range ends once and for all
  have hsecond := @eq_filter_append_filter
    (events.filter fun event => !isEarly round capturedAtMs timeRange event)
    (inTimeRange round capturedAtMs timeRange) (by
      refine List.Pairwise.imp_of_mem (fun {first second} hmem _ hle hin => ?_) (h.filter _)
      have hnotEarly := (List.mem_filter.mp hmem).2
      have hmono := elapsedSeconds_mono hround capturedAtMs hle
      unfold inTimeRange at hin ⊢
      unfold isEarly at hnotEarly
      simp only [Bool.not_eq_true', Bool.or_eq_false_iff, decide_eq_false_iff_not] at *
      exact ⟨hnotEarly, fun hc => hin.2 (hc.trans_le hmono)⟩)
  rw [List.filter_filter, List.filter_filter] at hsecond
  have hin : ∀ event, (inTimeRange round capturedAtMs timeRange event &&
      !isEarly round capturedAtMs timeRange event) = inTimeRange round capturedAtMs timeRange event := by
    intro event
    cases hcase : isEarly round capturedAtMs timeRange event with
    | true => rw [hdisjoint event hcase]; rfl
    | false => rw [Bool.not_false, Bool.and_true]
  have hlate : ∀ event, (!inTimeRange round capturedAtMs timeRange event &&
      !isEarly round capturedAtMs timeRange event) = (!isEarly round capturedAtMs timeRange event &&
        !inTimeRange round capturedAtMs timeRange event) := fun event => Bool.and_comm _ _
  rw [List.filter_congr fun event _ => hin event, List.filter_congr fun event _ => hlate event]
    at hsecond
  rw [List.append_assoc, ← hsecond]
  exact hfirst

end Seconds

/-- The time a capture counts its seconds from. -/
def exportStart (nowMs : UInt64) (capture : RawCapture) : UInt64 :=
  if capture.capturedAtMs = 0 then nowMs else capture.capturedAtMs

/-- **The export of the raw capture keeps the profiles of a range exactly when it reaches
it; the export of the records always does.** -/
theorem range_exports_keep_profiles_iff (round : ℚ → ℚ) (hround : Monotone round)
    (protocolName protocolDir : Text) (nowMs : UInt64) (capture : RawCapture)
    (hsorted : Chronological capture.events) (range : CsvExportRange) (timeRange : ℚ × ℚ)
    (hrange : resolveCsvExportTimeRange range = some timeRange) :
    (KeepsRange (inTimeRange round (exportStart nowMs capture) timeRange)
        (completeEvents (exportStart nowMs capture) capture)
        (exportWaveRawCapture round protocolName protocolDir nowMs range capture).events ↔
      ReachesRange (isEarly round (exportStart nowMs capture) timeRange)
        (inTimeRange round (exportStart nowMs capture) timeRange) capture) ∧
    ∀ (matchesLogFilter : RawCaptureEvent → Bool) (beginMs endMs : UInt64) (wasFiltered : Bool)
      (exported : RecordExport),
      exportedRecords matchesLogFilter (.timestamps beginMs endMs) wasFiltered capture =
          .ok exported →
        KeepsRange (inTimestamps beginMs endMs) (completeEvents capture.capturedAtMs capture)
          exported.events := by
  refine ⟨?_, fun _ _ _ _ _ hexported => keepsRange_exportedRecords hsorted hexported⟩
  let prepared : RawCapture :=
    { capture with
      protocolName := if protocolName = [] then capture.protocolName else protocolName
      protocolDir := if protocolDir = [] then capture.protocolDir else protocolDir
      capturedAtMs := exportStart nowMs capture }
  have hevents : (exportWaveRawCapture round protocolName protocolDir nowMs range capture).events =
      (normalizeRawCaptureExportWindow prepared).events.filter
        (inTimeRange round (exportStart nowMs capture) timeRange) := by
    have hstart := capturedAtMs_normalize prepared
    dsimp only [exportWaveRawCapture, prepareRawCaptureForExport]
    rw [hrange]
    show ((normalizeRawCaptureExportWindow prepared).events.filter
      (inTimeRange round (normalizeRawCaptureExportWindow prepared).capturedAtMs timeRange)) = _
    rw [hstart]
  have hdivides : Divides (isEarly round (exportStart nowMs capture) timeRange)
      (inTimeRange round (exportStart nowMs capture) timeRange) prepared.events :=
    divides_of_chronological hround _ timeRange hsorted
  rw [hevents]
  exact keepsRange_iff_reachesRange hdivides

/-- A profile that is set in the range reaches it. -/
def renewedCapture : RawCapture where
  capturedAtMs := 1
  payload := [7]
  events :=
    [{ type := .profileSet, timestampMs := 1001, profile := { frameName := text "f" } },
      { type := .rxBytes, timestampMs := 1002, bytes := [7] }]

/-- A profile that is set before it does not. -/
def staleCapture : RawCapture where
  capturedAtMs := 1
  payload := [7]
  events :=
    [{ type := .profileSet, timestampMs := 1, profile := { frameName := text "f" } },
      { type := .rxBytes, timestampMs := 1002, bytes := [7] }]

def manualRange : CsvExportRange where
  kind := .manual
  manualMinTime := 1
  manualMaxTime := 2

theorem range_exports_keep_profiles_iff_renewed :
    KeepsRange (inTimeRange id 1 (1, 2)) (completeEvents 1 renewedCapture)
      (exportWaveRawCapture id [] [] 5 manualRange renewedCapture).events := by
  refine (range_exports_keep_profiles_iff id monotone_id [] [] 5 renewedCapture (by decide)
    manualRange (1, 2) rfl).1.mpr (Or.inr ⟨by decide, ?_, ?_, fun name hactive => ?_⟩)
  · decide +kernel
  · decide +kernel
  · have hearly : renewedCapture.events.filter (isEarly id 1 (1, 2)) = [] := by decide +kernel
    exact absurd (show profileMap ((renewedCapture.events.filter (isEarly id 1 (1, 2))).foldl
      foldProfile []) name = none by rw [hearly]; rfl) hactive

/-- The profile of the bytes is lost with the events before the range. -/
theorem export_loses_earlier_profile :
    ¬ ∀ (capture : RawCapture), Chronological capture.events →
      ∀ (range : CsvExportRange) (timeRange : ℚ × ℚ),
        resolveCsvExportTimeRange range = some timeRange →
        KeepsRange (inTimeRange id (exportStart 5 capture) timeRange)
          (completeEvents (exportStart 5 capture) capture)
          (exportWaveRawCapture id [] [] 5 range capture).events := by
  intro hall
  have hkept : KeepsRange (inTimeRange id 1 (1, 2)) staleCapture.events
      (exportWaveRawCapture id [] [] 5 manualRange staleCapture).events :=
    hall staleCapture (by decide) manualRange (1, 2) rfl
  have hexported : (exportWaveRawCapture id [] [] 5 manualRange staleCapture).events =
      [{ type := .rxBytes, timestampMs := 1002, bytes := [7] }] := by decide +kernel
  have hwithin : inTimeRange id 1 (1, 2) { type := .rxBytes, timestampMs := 1002, bytes := [7] } =
      true := by decide +kernel
  have hcomplete : (bytesUnderProfiles [] staleCapture.events).filter
      (fun entry => inTimeRange id 1 (1, 2) entry.1) =
        [({ type := .rxBytes, timestampMs := 1002, bytes := [7] },
          profileMap (staleCapture.events.take 1))] :=
    List.filter_cons_of_pos hwithin
  rw [KeepsRange, hexported, hcomplete] at hkept
  have hmaps := congrFun (congrArg Prod.snd (List.cons.inj (hkept.eq_of_length rfl)).1) (text "f")
  exact absurd hmaps (by decide)

end ProtoScope.App
