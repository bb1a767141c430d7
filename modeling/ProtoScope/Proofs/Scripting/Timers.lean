/-
Which armings of a timer fire, and when.

An arming stands as long as its timer is not armed anew, cancelled or handed over.  The row of an
active timer has the number of the arming that stands; every arming gets a number that was not used
before, so a number that a tick has collected fits no arming made after that.  What a callback
adds to the events is said once, and every law is read off the events.
-/
import ProtoScope.Scripting.Timers

namespace ProtoScope.Scripting

open ProtoScope.Data (Text)
open ProtoScope.Library KeyedRows TimerHost

namespace TimerEvent

/-- The timer is armed anew or cancelled. -/
def Disarms (name : Text) : TimerEvent → Prop
  | .armed other _ => other = name
  | .cancelled other => other = name
  | _ => False

def armedGeneration : TimerEvent → Option ℕ
  | .armed _ generation => some generation
  | _ => none

end TimerEvent

open TimerEvent

/-! ### Armings that stand -/

section Events

variable {events more before after : List TimerEvent} {name : Text} {generation : ℕ}
  {event : TimerEvent}

/-- Since it was armed the timer was not armed anew, cancelled or handed over. -/
def Standing (events : List TimerEvent) (name : Text) (generation : ℕ) : Prop :=
  ∃ before after, events = before ++ .armed name generation :: after ∧
    (∀ event ∈ after, ¬ event.Disarms name) ∧ .fired name generation ∉ after

theorem Standing.append (h : Standing events name generation)
    (hdisarms : ∀ event ∈ more, ¬ event.Disarms name) (hfired : .fired name generation ∉ more) :
    Standing (events ++ more) name generation := by
  obtain ⟨before, after, rfl, hstanding, hnot⟩ := h
  refine ⟨before, after ++ more, by rw [List.append_assoc, List.cons_append], ?_, ?_⟩
  · intro event hevent
    rcases List.mem_append.mp hevent with hmem | hmem
    · exact hstanding event hmem
    · exact hdisarms event hmem
  · intro hmem
    rcases List.mem_append.mp hmem with hmem | hmem
    · exact hnot hmem
    · exact hfired hmem

theorem Standing.armed_mem (h : Standing events name generation) :
    .armed name generation ∈ events := by
  obtain ⟨before, after, rfl, -⟩ := h
  exact List.mem_append_right _ List.mem_cons_self

/-- No two armings have the same number. -/
def NumbersDiffer (events : List TimerEvent) : Prop := (events.filterMap armedGeneration).Nodup

theorem NumbersDiffer.of_append (h : NumbersDiffer (events ++ more)) : NumbersDiffer events := by
  unfold NumbersDiffer at h ⊢
  rw [List.filterMap_append] at h
  exact (List.nodup_append.mp h).1

/-- An arming happens once. -/
theorem NumbersDiffer.armed_once
    (h : NumbersDiffer (before ++ .armed name generation :: after)) :
    .armed name generation ∉ before ∧ .armed name generation ∉ after := by
  have hmem : ∀ {events : List TimerEvent}, .armed name generation ∈ events →
      generation ∈ events.filterMap armedGeneration := by
    intro events hevent
    exact List.mem_filterMap.mpr ⟨_, hevent, rfl⟩
  unfold NumbersDiffer at h
  rw [List.filterMap_append, List.filterMap_cons] at h
  obtain ⟨-, hright, hapart⟩ := List.nodup_append.mp h
  refine ⟨fun hbefore => ?_, fun hafter => ?_⟩
  · exact hapart generation (hmem hbefore) generation List.mem_cons_self rfl
  · exact (List.nodup_cons.mp hright).1 (hmem hafter)

/-- An arming that stands has stood since the one place where it was made. -/
theorem Standing.after_eq
    (h : Standing (before ++ .armed name generation :: after) name generation)
    (hdiffer : NumbersDiffer (before ++ .armed name generation :: after)) :
    (∀ event ∈ after, ¬ event.Disarms name) ∧ .fired name generation ∉ after := by
  obtain ⟨before', after', heq, hrest⟩ := h
  obtain ⟨hbefore, hafter⟩ := hdiffer.armed_once
  obtain ⟨-, -, rfl⟩ := (List.append_cons_inj_of_notMem hbefore hafter).mp heq
  exact hrest

end Events

/-! ### What a callback adds -/

namespace TimerHost

variable {host host' host'' : TimerHost} {more more' : List TimerEvent}

/-- The host goes on, and adds these events. -/
structure Grows (host host' : TimerHost) (more : List TimerEvent) : Prop where
  events : host'.events = host.events ++ more
  faulted : host.executionFaulted = true → host'.executionFaulted = true
  /-- without a fault a timer that nothing happened to has its row -/
  kept : host'.executionFaulted = false → ∀ name,
    (∀ event ∈ more, ¬ event.Disarms name ∧ ∀ generation, event ≠ .fired name generation) →
      find name host'.timers = find name host.timers

theorem Grows.refl (host : TimerHost) : Grows host host [] :=
  ⟨(List.append_nil _).symm, id, fun _ _ _ => rfl⟩

theorem Grows.trans (h : Grows host host' more) (h' : Grows host' host'' more') :
    Grows host host'' (more ++ more') := by
  refine ⟨?_, fun hf => h'.faulted (h.faulted hf), fun hf name hquiet => ?_⟩
  · rw [h'.events, h.events, List.append_assoc]
  · have hrunning : host'.executionFaulted = false := by
      cases hfault : host'.executionFaulted with
      | false => rfl
      | true =>
        rw [h'.faulted hfault] at hf
        cases hf
    rw [h'.kept hf name fun event hevent => hquiet event (List.mem_append_right _ hevent),
      h.kept hrunning name fun event hevent => hquiet event (List.mem_append_left _ hevent)]

/-- What holds of the host between any two events. -/
structure Sound (host : TimerHost) : Prop where
  keys : (keys host.timers).Nodup
  fresh : ∀ generation ∈ host.events.filterMap armedGeneration,
    generation < host.nextTimerGeneration
  differ : NumbersDiffer host.events
  /-- an active timer has the number of the arming that stands -/
  standing : ∀ name timer, find name host.timers = some timer → timer.active = true →
    Standing host.events name timer.generation
  /-- what fired was an arming that stood -/
  stood : ∀ before name generation after,
    host.events = before ++ .fired name generation :: after → Standing before name generation

theorem Sound.next_append {event : TimerEvent} (h : Sound host)
    (harmed : armedGeneration event = none)
    (hstood : ∀ name generation, event = .fired name generation →
      Standing host.events name generation)
    (hstanding : ∀ name timer, find name host.timers = some timer →
      timer.active = true → ¬ event.Disarms name ∧ event ≠ .fired name timer.generation) :
    Sound (host.record event) := by
  have hnumbers : (host.events ++ [event]).filterMap armedGeneration =
      host.events.filterMap armedGeneration := by
    rw [List.filterMap_append, List.filterMap_cons, harmed]
    exact List.append_nil _
  refine ⟨h.keys, ?_, ?_, fun name timer hfind hactive => ?_, ?_⟩
  · show ∀ generation ∈ (host.events ++ [event]).filterMap armedGeneration, _
    rw [hnumbers]
    exact h.fresh
  · show ((host.events ++ [event]).filterMap armedGeneration).Nodup
    rw [hnumbers]
    exact h.differ
  · obtain ⟨hdisarms, hfired⟩ := hstanding name timer hfind hactive
    refine (h.standing name timer hfind hactive).append (fun other hother => ?_) fun hmem => ?_
    · rw [List.mem_singleton.mp hother]
      exact hdisarms
    · exact hfired (List.mem_singleton.mp hmem).symm
  · intro before name generation after heq
    have heq' : host.events ++ [event] = before ++ .fired name generation :: after := heq
    rcases List.eq_nil_or_concat after with rfl | ⟨front, last, rfl⟩
    · obtain ⟨hbefore, hevent⟩ := List.append_inj' heq' rfl
      rw [← hbefore]
      exact hstood name generation (List.singleton_inj.mp hevent)
    · rw [List.concat_eq_append, ← List.cons_append, ← List.append_assoc] at heq'
      obtain ⟨hfront, -⟩ := List.append_inj' heq' rfl
      exact h.stood before name generation front hfront

/-! ### Arming and cancelling -/

theorem find_deactivate (host : TimerHost) (name other : Text) :
    find other (host.deactivate name).timers =
      if other = name then
        (find name host.timers).map fun timer => { timer with active := false }
      else find other host.timers := by
  unfold deactivate
  cases hfind : find name host.timers with
  | none =>
    dsimp only
    split
    · rename_i hother
      rw [hother, hfind]
      rfl
    · rfl
  | some timer =>
    dsimp only [store]
    rw [find_upsert]
    rfl

theorem deactivate_timers_keys (h : (keys host.timers).Nodup) (name : Text) :
    (keys (host.deactivate name).timers).Nodup := by
  unfold deactivate
  split
  · exact nodup_keys_upsert h
  · exact h

@[simp] theorem deactivate_events (host : TimerHost) (name : Text) :
    (host.deactivate name).events = host.events := by
  unfold deactivate
  split
  · rfl
  · rfl

@[simp] theorem deactivate_next (host : TimerHost) (name : Text) :
    (host.deactivate name).nextTimerGeneration = host.nextTimerGeneration := by
  unfold deactivate
  split
  · rfl
  · rfl

@[simp] theorem deactivate_faulted (host : TimerHost) (name : Text) :
    (host.deactivate name).executionFaulted = host.executionFaulted := by
  unfold deactivate
  split
  · rfl
  · rfl

/-- The row of a timer that was deactivated is not active, the others are as they were. -/
theorem find_of_deactivate_active {name other : Text} {timer : TimerState}
    (hfind : find other (host.deactivate name).timers = some timer)
    (hactive : timer.active = true) :
    other ≠ name ∧ find other host.timers = some timer := by
  rw [find_deactivate] at hfind
  split at hfind
  · obtain ⟨row, -, rfl⟩ := Option.map_eq_some_iff.mp hfind
    cases hactive
  · exact ⟨‹_›, hfind⟩

theorem Sound.deactivate (h : Sound host) (name : Text) : Sound (host.deactivate name) := by
  refine ⟨deactivate_timers_keys h.keys name, ?_, ?_, fun other timer hfind hactive => ?_, ?_⟩
  · rw [deactivate_events, deactivate_next]
    exact h.fresh
  · rw [deactivate_events]
    exact h.differ
  · rw [deactivate_events]
    exact h.standing other timer (find_of_deactivate_active hfind hactive).2 hactive
  · rw [deactivate_events]
    exact h.stood

/-- A timer is deactivated, and the event says why. -/
theorem grows_deactivate (host : TimerHost) (name : Text) (event : TimerEvent)
    (hevent : event.Disarms name ∨ ∃ generation, event = .fired name generation) :
    Grows host ((host.deactivate name).record event) [event] := by
  refine ⟨?_, fun hf => ?_, fun hf other hquiet => ?_⟩
  · show (host.deactivate name).events ++ [event] = _
    rw [deactivate_events]
  · exact (deactivate_faulted host name).trans hf
  · obtain ⟨hdisarms, hfired⟩ := hquiet event (List.mem_singleton_self event)
    have hother : other ≠ name := by
      rintro rfl
      rcases hevent with hdisarm | ⟨generation, hfire⟩
      · exact hdisarms hdisarm
      · exact hfired generation hfire
    show find other (host.deactivate name).timers = _
    rw [find_deactivate, if_neg hother]

theorem sound_protoCancelTimer (h : Sound host) (name : Text) :
    Sound (host.protoCancelTimer name) := by
  refine (h.deactivate name).next_append rfl (fun _ _ heq => (by cases heq))
    fun other timer hfind hactive => ⟨fun hdisarms => ?_, fun heq => (by cases heq)⟩
  exact (find_of_deactivate_active hfind hactive).1 hdisarms.symm

theorem sound_protoSetTimer (h : Sound host) (name : Text) (intervalMs nowMs : ℕ) :
    Sound (host.protoSetTimer name intervalMs nowMs) := by
  have hnumbers : (host.events ++ [TimerEvent.armed name host.nextTimerGeneration]).filterMap
      armedGeneration = host.events.filterMap armedGeneration ++ [host.nextTimerGeneration] := by
    rw [List.filterMap_append]
    rfl
  refine ⟨nodup_keys_upsert h.keys, ?_, ?_, fun other timer hfind hactive => ?_, ?_⟩
  · show ∀ generation ∈ (host.events ++ [TimerEvent.armed name _]).filterMap armedGeneration, _
    rw [hnumbers]
    intro generation hmem
    rcases List.mem_append.mp hmem with hold | hnew
    · exact Nat.lt_succ_of_lt (h.fresh generation hold)
    · rw [List.mem_singleton.mp hnew]
      exact Nat.lt_succ_self _
  · show ((host.events ++ [TimerEvent.armed name _]).filterMap armedGeneration).Nodup
    rw [hnumbers, List.nodup_append]
    refine ⟨h.differ, List.pairwise_singleton _ _, fun generation hold other hnew => ?_⟩
    rw [List.mem_singleton.mp hnew]
    exact Nat.ne_of_lt (h.fresh generation hold)
  · have hrow : (if other = name then some (TimerState.mk name ((nowMs + intervalMs) % 2 ^ 64) true
        host.nextTimerGeneration) else find other host.timers) = some timer := by
      rw [← find_upsert]
      exact hfind
    show Standing (host.events ++ [.armed name host.nextTimerGeneration]) other timer.generation
    by_cases hother : other = name
    · rw [if_pos hother] at hrow
      obtain rfl := Option.some.inj hrow
      rw [hother]
      exact ⟨host.events, [], rfl, by simp, by simp⟩
    · rw [if_neg hother] at hrow
      refine (h.standing other timer hrow hactive).append (fun event hevent hdisarms => ?_) (by simp)
      rw [List.mem_singleton.mp hevent] at hdisarms
      exact hother hdisarms.symm
  · intro before other generation after heq
    have heq' : host.events ++ [TimerEvent.armed name host.nextTimerGeneration] =
        before ++ .fired other generation :: after := heq
    rcases List.eq_nil_or_concat after with rfl | ⟨front, last, rfl⟩
    · cases List.singleton_inj.mp (List.append_inj' heq' rfl).2
    · rw [List.concat_eq_append, ← List.cons_append, ← List.append_assoc] at heq'
      exact h.stood before other generation front (List.append_inj' heq' rfl).1

theorem grows_protoSetTimer (host : TimerHost) (name : Text) (intervalMs nowMs : ℕ) :
    Grows host (host.protoSetTimer name intervalMs nowMs)
      [.armed name host.nextTimerGeneration] := by
  refine ⟨rfl, id, fun _ other hquiet => ?_⟩
  have hother : other ≠ name := by
    rintro rfl
    exact (hquiet _ (List.mem_singleton_self _)).1 rfl
  show find other (upsert name _ host.timers) = _
  rw [find_upsert, if_neg hother]

/-! ### Callbacks -/

/-- The events name no timer that fires. -/
def NoneFired (more : List TimerEvent) : Prop := ∀ name generation, .fired name generation ∉ more

theorem NoneFired.append (h : NoneFired more) (h' : NoneFired more') :
    NoneFired (more ++ more') := by
  intro name generation hmem
  rcases List.mem_append.mp hmem with hmem | hmem
  · exact h name generation hmem
  · exact h' name generation hmem

/-- What a callback leaves. -/
structure CallbackDone (host host' : TimerHost) (more : List TimerEvent) : Prop where
  grows : Grows host host' more
  quiet : NoneFired more
  sound : Sound host → Sound host'

theorem CallbackDone.trans (h : CallbackDone host host' more)
    (h' : CallbackDone host' host'' more') : CallbackDone host host'' (more ++ more') :=
  ⟨h.grows.trans h'.grows, h.quiet.append h'.quiet, fun hsound => h'.sound (h.sound hsound)⟩

theorem call_done (host : TimerHost) (call : TimerCall) :
    ∃ more, CallbackDone host (host.call call) more := by
  cases call with
  | setTimer name intervalMs nowMs =>
    exact ⟨_, grows_protoSetTimer host name intervalMs nowMs, by simp [NoneFired],
      fun h => sound_protoSetTimer h name intervalMs nowMs⟩
  | cancelTimer name =>
    exact ⟨_, grows_deactivate host name _ (Or.inl rfl), by simp [NoneFired],
      fun h => sound_protoCancelTimer h name⟩

theorem calls_done (host : TimerHost) (calls : List TimerCall) :
    ∃ more, CallbackDone host (calls.foldl call host) more := by
  induction calls generalizing host with
  | nil => exact ⟨[], Grows.refl host, by simp [NoneFired], id⟩
  | cons first calls ih =>
    obtain ⟨more, h⟩ := call_done host first
    obtain ⟨more', h'⟩ := ih (host.call first)
    exact ⟨more ++ more', h.trans h'⟩

theorem runCallback_done (host : TimerHost) (run : CallbackRun) :
    ∃ more, CallbackDone host (host.runCallback run) more := by
  obtain ⟨more, h⟩ := calls_done host run.calls
  refine ⟨more, ?_⟩
  unfold runCallback
  cases run.ending with
  | returned => exact h
  | failed =>
    refine ⟨⟨h.grows.events, fun _ => rfl, fun hf => (by cases hf)⟩,
      h.quiet, fun hsound => ?_⟩
    obtain ⟨-, hfresh, hdiffer, -, hstood⟩ := h.sound hsound
    exact ⟨List.nodup_nil, hfresh, hdiffer, fun _ _ hfind => (by cases hfind), hstood⟩
  | stopped =>
    refine ⟨⟨h.grows.events, fun _ => rfl, fun hf => (by cases hf)⟩,
      h.quiet, fun hsound => ?_⟩
    obtain ⟨hkeys, hfresh, hdiffer, hstanding, hstood⟩ := h.sound hsound
    exact ⟨hkeys, hfresh, hdiffer, hstanding, hstood⟩

theorem callback_done (host : TimerHost) (run : CallbackRun) :
    ∃ more, CallbackDone host (host.callback run) more := by
  unfold callback
  split
  · exact ⟨[], Grows.refl host, by simp [NoneFired], id⟩
  · exact runCallback_done host run

theorem callbacks_done (host : TimerHost) (runs : List CallbackRun) :
    ∃ more, CallbackDone host (runs.foldl callback host) more := by
  induction runs generalizing host with
  | nil => exact ⟨[], Grows.refl host, by simp [NoneFired], id⟩
  | cons first runs ih =>
    obtain ⟨more, h⟩ := callback_done host first
    obtain ⟨more', h'⟩ := ih (host.callback first)
    exact ⟨more ++ more', h.trans h'⟩

/-! ### A tick -/

section Tick

variable {polled : TimerHost} {currentMs : ℕ} {callbacks : Text → CallbackRun}
  {entry : Text × ℕ}

theorem deactivate_of_find {name : Text} {timer : TimerState}
    (h : find name host.timers = some timer) :
    host.store name { timer with active := false } = host.deactivate name := by
  unfold deactivate
  rw [h]

/-- The turn of a timer: nothing happens, or it is handed over. -/
theorem visit_cases (callbacks : Text → CallbackRun) (host : TimerHost) (entry : Text × ℕ) :
    (host.visit callbacks entry = host ∧ ∀ timer,
        find entry.1 host.timers = some timer → timer.active = true →
          timer.generation ≠ entry.2) ∨
      ∃ timer, find entry.1 host.timers = some timer ∧ timer.active = true ∧
        timer.generation = entry.2 ∧
        host.visit callbacks entry =
          (host.deactivate entry.1).callbackOnTimer entry.1 entry.2 (callbacks entry.1) := by
  unfold visit
  cases hfind : find entry.1 host.timers with
  | none => exact Or.inl ⟨rfl, fun timer hsome => (by cases hsome)⟩
  | some timer =>
    dsimp only
    by_cases hturn : timer.active = true ∧ timer.generation = entry.2
    · refine Or.inr ⟨timer, rfl, hturn.1, hturn.2, ?_⟩
      rw [if_neg (by simp [hturn.1, hturn.2]), deactivate_of_find hfind]
    · refine Or.inl ⟨if_pos ?_, fun other hother hactive hgeneration => ?_⟩
      · rw [Bool.or_eq_true, Bool.not_eq_true', decide_eq_true_eq]
        by_cases hactive : timer.active = true
        · exact Or.inr fun hgeneration => hturn ⟨hactive, hgeneration⟩
        · exact Or.inl (Bool.not_eq_true _ ▸ hactive)
      · obtain rfl := Option.some.inj hother
        exact hturn ⟨hactive, hgeneration⟩

/-- What the turn of a timer adds. -/
structure Turn (host host' : TimerHost) (entry : Text × ℕ) (more : List TimerEvent) : Prop where
  grows : Grows host host' more
  /-- no other timer fires -/
  own : ∀ name generation, .fired name generation ∈ more → (name, generation) = entry
  /-- the timer fires if it was not disarmed and the host runs on -/
  fires : host'.executionFaulted = false → ∀ timer,
    find entry.1 host.timers = some timer → timer.active = true →
      timer.generation = entry.2 → .fired entry.1 entry.2 ∈ more
  sound : Sound host → Sound host'

theorem visit_turn (host : TimerHost) (entry : Text × ℕ) (callbacks : Text → CallbackRun) :
    ∃ more, Turn host (host.visit callbacks entry) entry more := by
  rcases visit_cases callbacks host entry with ⟨hsame, hnot⟩ |
    ⟨timer, hfind, hactive, hgeneration, hvisit⟩
  · rw [hsame]
    exact ⟨[], Grows.refl host, by simp, fun _ timer hfind hactive heq =>
      absurd heq (hnot timer hfind hactive), id⟩
  rw [hvisit]
  by_cases hfault : host.executionFaulted = true
  · have hstays : (host.deactivate entry.1).callbackOnTimer entry.1 entry.2 (callbacks entry.1) =
        host.deactivate entry.1 := by
      unfold callbackOnTimer
      rw [if_pos ((deactivate_faulted host entry.1).trans hfault)]
    have hgrows : Grows host (host.deactivate entry.1) [] :=
      ⟨by simp, fun hf => by simpa using hf, fun hf => by simp [hfault] at hf⟩
    rw [hstays]
    exact ⟨[], hgrows, by simp, fun hf => by simp [hfault] at hf, fun h => h.deactivate entry.1⟩
  · have hfires : (host.deactivate entry.1).callbackOnTimer entry.1 entry.2 (callbacks entry.1) =
        ((host.deactivate entry.1).record (.fired entry.1 entry.2)).runCallback
          (callbacks entry.1) := by
      unfold callbackOnTimer
      rw [if_neg (by simpa using hfault)]
    obtain ⟨after, hdone⟩ :=
      runCallback_done ((host.deactivate entry.1).record (.fired entry.1 entry.2))
        (callbacks entry.1)
    have hgrows := (grows_deactivate host entry.1 (.fired entry.1 entry.2)
      (Or.inr ⟨entry.2, rfl⟩)).trans hdone.grows
    rw [hfires]
    refine ⟨[.fired entry.1 entry.2] ++ after, hgrows, fun name generation hmem => ?_,
      fun _ _ _ _ _ => List.mem_append_left _ (List.mem_singleton_self _), fun h => ?_⟩
    · rcases List.mem_append.mp hmem with hmem | hmem
      · cases List.mem_singleton.mp hmem
        rfl
      · exact absurd hmem (hdone.quiet name generation)
    · refine hdone.sound ((h.deactivate entry.1).next_append rfl (fun name generation heq => ?_)
        fun other row hrow hrowActive => ⟨fun hfalse => hfalse, fun heq => ?_⟩)
      · cases heq
        rw [deactivate_events, ← hgeneration]
        exact h.standing entry.1 timer hfind hactive
      · exact (find_of_deactivate_active hrow hrowActive).1 (TimerEvent.fired.inj heq).1.symm

/-- Several turns, one after the other. -/
structure Turns (host host' : TimerHost) (entries : List (Text × ℕ)) (more : List TimerEvent) :
    Prop where
  grows : Grows host host' more
  own : ∀ name generation, .fired name generation ∈ more → (name, generation) ∈ entries
  sound : Sound host → Sound host'

theorem visits_turns (host : TimerHost) (entries : List (Text × ℕ))
    (callbacks : Text → CallbackRun) :
    ∃ more, Turns host (entries.foldl (visit callbacks) host) entries more := by
  induction entries generalizing host with
  | nil => exact ⟨[], Grows.refl host, by simp, id⟩
  | cons entry entries ih =>
    obtain ⟨first, hturn⟩ := visit_turn host entry callbacks
    obtain ⟨rest, hrest⟩ := ih (host.visit callbacks entry)
    refine ⟨first ++ rest, hturn.grows.trans hrest.grows, fun name generation hmem => ?_,
      fun h => hrest.sound (hturn.sound h)⟩
    rcases List.mem_append.mp hmem with hmem | hmem
    · rw [hturn.own name generation hmem]
      exact List.mem_cons_self
    · exact List.mem_cons_of_mem _ (hrest.own name generation hmem)

theorem mem_dueTimers {timers : List (Text × TimerState)} :
    entry ∈ dueTimers timers currentMs ↔ ∃ timer, (entry.1, timer) ∈ timers ∧
      timer.active = true ∧ timer.dueAtMs ≤ currentMs ∧ timer.generation = entry.2 := by
  unfold dueTimers
  rw [List.mem_map]
  constructor
  · rintro ⟨row, hrow, rfl⟩
    obtain ⟨hmem, hdue⟩ := List.mem_filter.mp hrow
    rw [Bool.and_eq_true, decide_eq_true_eq] at hdue
    exact ⟨row.2, hmem, hdue.1, hdue.2, rfl⟩
  · rintro ⟨timer, hmem, hactive, hdue, hgeneration⟩
    refine ⟨(entry.1, timer), List.mem_filter.mpr ⟨hmem, ?_⟩, Prod.ext rfl hgeneration⟩
    rw [hactive, Bool.true_and]
    exact decide_eq_true hdue

theorem mem_visiting {order : Text → ℕ} {due : List (Text × ℕ)} :
    entry ∈ visiting order due ↔ entry ∈ due :=
  (List.mergeSort_perm due _).mem_iff

/-- The names that are visited differ. -/
theorem visiting_names (h : Sound polled) (order : Text → ℕ) :
    ((visiting order (dueTimers polled.timers currentMs)).map Prod.fst).Nodup := by
  have hperm := (List.mergeSort_perm (dueTimers polled.timers currentMs)
    fun first second => decide (order first.1 ≤ order second.1)).map Prod.fst
  refine hperm.nodup_iff.mpr ?_
  unfold dueTimers
  rw [List.map_map]
  exact h.keys.sublist (List.filter_sublist.map _)

/-- A timer that is collected was armed before. -/
theorem armed_of_visiting (h : Sound polled) {order : Text → ℕ}
    (hentry : entry ∈ visiting order (dueTimers polled.timers currentMs)) :
    .armed entry.1 entry.2 ∈ polled.events := by
  obtain ⟨timer, hmem, hactive, -, hgeneration⟩ := mem_dueTimers.mp (mem_visiting.mp hentry)
  rw [← hgeneration]
  exact (h.standing entry.1 timer (KeyedRows.find_of_mem h.keys hmem) hactive).armed_mem

theorem Sound.tick (h : Sound host) (currentMs : ℕ) (completions : List CallbackRun)
    (order : Text → ℕ) (callbacks : Text → CallbackRun) :
    Sound (host.tick currentMs completions order callbacks) := by
  unfold TimerHost.tick
  split
  · exact h
  obtain ⟨more, hdone⟩ := callbacks_done host completions
  have hpolled := hdone.sound h
  dsimp only
  split
  · exact hpolled
  · obtain ⟨_, hturns⟩ := visits_turns (completions.foldl callback host)
      (visiting order (dueTimers (completions.foldl callback host).timers currentMs)) callbacks
    exact hturns.sound hpolled

end Tick

theorem Sound.step (h : Sound host) (step : TimerStep) : Sound (host.step step) := by
  cases step with
  | callback run =>
    obtain ⟨more, hdone⟩ := callback_done host run
    exact hdone.sound h
  | tick currentMs completions order callbacks => exact h.tick currentMs completions order callbacks

/-- **In every run what fired was an arming that stood, and no two armings have the same
number.** -/
theorem sound_run (steps : List TimerStep) : Sound (run steps) := by
  have hgeneral : ∀ (steps : List TimerStep) (host : TimerHost), Sound host →
      Sound (steps.foldl step host) := by
    intro steps
    induction steps with
    | nil => exact fun _ h => h
    | cons first steps ih => exact fun host h => ih _ (h.step first)
  have hstart : Sound {} :=
    ⟨List.nodup_nil, by simp, List.nodup_nil, fun _ _ hfind => (by cases hfind), by simp⟩
  exact hgeneral steps {} hstart

end TimerHost

/-! ### The laws -/

/-- What the events say about the armings of timers. -/
structure TimerLaws (events : List TimerEvent) : Prop where
  /-- armings can be told apart by their numbers -/
  differ : (events.filterMap armedGeneration).Nodup
  /-- what fires was armed before -/
  armed : ∀ before name generation after, events = before ++ .fired name generation :: after →
    .armed name generation ∈ before
  once : ∀ before name generation after, events = before ++ .fired name generation :: after →
    .fired name generation ∉ after
  /-- not after it was cancelled or armed anew -/
  disarmed : ∀ before name generation between event after,
    events = before ++ .armed name generation :: (between ++ event :: after) →
      event.Disarms name → .fired name generation ∉ after

/-- The events a tick adds name armings from before the turns of the timers. -/
def FiresOld (host : TimerHost) (currentMs : ℕ) (completions : List CallbackRun)
    (order : Text → ℕ) (callbacks : Text → CallbackRun) : Prop :=
  ∀ name generation,
    .fired name generation ∈
        (host.tick currentMs completions order callbacks).events.drop host.events.length →
      .armed name generation ∈ (completions.foldl callback host).events

/-- A timer that is due at a tick without a fault fires, or it was disarmed before its turn. -/
def DueFires (host : TimerHost) (currentMs : ℕ) (completions : List CallbackRun)
    (order : Text → ℕ) (callbacks : Text → CallbackRun) : Prop :=
  let after := host.tick currentMs completions order callbacks
  let added (host' : TimerHost) := host'.events.drop host.events.length
  let polled := completions.foldl callback host
  let visited := visiting order (dueTimers polled.timers currentMs)
  after.executionFaulted = false → ∀ name timer,
    find name host.timers = some timer → timer.active = true →
    timer.dueAtMs ≤ currentMs →
      (∃ event ∈ added polled, event.Disarms name) ∨
      ∃ front back, visited = front ++ (name, timer.generation) :: back ∧
        ((∃ event ∈ added (front.foldl (visit callbacks) polled), event.Disarms name) ∨
          .fired name timer.generation ∈ added after)

namespace TimerHost

variable {host : TimerHost}

theorem Sound.laws (h : Sound host) : TimerLaws host.events := by
  refine ⟨h.differ, fun before name generation after heq =>
      (h.stood before name generation after heq).armed_mem,
    fun before name generation after heq hmem => ?_,
    fun before name generation between event after heq hdisarms hmem => ?_⟩
  · -- the second time it would have stood since the place where it was made, before the first
    obtain ⟨front, back, rfl, -⟩ := h.stood before name generation after heq
    obtain ⟨middle, rest, rfl⟩ := List.append_of_mem hmem
    have hsecond : host.events =
        (front ++ .armed name generation :: (back ++ .fired name generation :: middle)) ++
          .fired name generation :: rest := by
      rw [heq]
      simp [List.append_assoc]
    have hdiffer := h.differ
    rw [hsecond] at hdiffer
    obtain ⟨-, hnot⟩ := (h.stood _ name generation rest hsecond).after_eq hdiffer.of_append
    exact hnot (List.mem_append_right _ List.mem_cons_self)
  · obtain ⟨middle, rest, rfl⟩ := List.append_of_mem hmem
    have hfire : host.events =
        (before ++ .armed name generation :: (between ++ event :: middle)) ++
          .fired name generation :: rest := by
      rw [heq]
      simp [List.append_assoc]
    have hdiffer := h.differ
    rw [hfire] at hdiffer
    obtain ⟨hquiet, -⟩ := (h.stood _ name generation rest hfire).after_eq hdiffer.of_append
    exact hquiet event (List.mem_append_right _ List.mem_cons_self) hdisarms

theorem running_of_grows {host' : TimerHost} {more : List TimerEvent}
    (h : Grows host host' more) (hf : host'.executionFaulted = false) :
    host.executionFaulted = false := by
  cases hfault : host.executionFaulted with
  | false => rfl
  | true =>
    rw [h.faulted hfault] at hf
    cases hf

theorem added_eq {host' : TimerHost} {more : List TimerEvent} (h : Grows host host' more) :
    host'.events.drop host.events.length = more := by
  rw [h.events]
  exact List.drop_left

theorem Sound.firesOld (h : Sound host) (currentMs : ℕ) (completions : List CallbackRun)
    (order : Text → ℕ) (callbacks : Text → CallbackRun) :
    FiresOld host currentMs completions order callbacks := by
  intro name generation hfired
  obtain ⟨first, hdone⟩ := callbacks_done host completions
  unfold TimerHost.tick at hfired
  split at hfired
  · rw [List.drop_length] at hfired
    cases hfired
  dsimp only at hfired
  split at hfired
  · rw [added_eq hdone.grows] at hfired
    exact absurd hfired (hdone.quiet name generation)
  · obtain ⟨second, hturns⟩ := visits_turns (completions.foldl callback host)
      (visiting order (dueTimers (completions.foldl callback host).timers currentMs)) callbacks
    rw [added_eq (hdone.grows.trans hturns.grows)] at hfired
    rcases List.mem_append.mp hfired with hmem | hmem
    · exact absurd hmem (hdone.quiet name generation)
    · exact armed_of_visiting (hdone.sound h) (hturns.own name generation hmem)

theorem Sound.dueFires (h : Sound host) (currentMs : ℕ) (completions : List CallbackRun)
    (order : Text → ℕ) (callbacks : Text → CallbackRun) :
    DueFires host currentMs completions order callbacks := by
  unfold DueFires
  intro after added polled visited hafter name timer hfind hactive hdue
  obtain ⟨first, hdone⟩ := callbacks_done host completions
  have hpolled : Sound polled := hdone.sound h
  have hadded : added polled = first := added_eq hdone.grows
  by_cases hdisarmed : ∃ event ∈ first, event.Disarms name
  · rw [hadded]
    exact Or.inl hdisarmed
  refine Or.inr ?_
  have hrun : host.executionFaulted = false := by
    cases hfault : host.executionFaulted with
    | false => rfl
    | true =>
      have hstays : after = host := by
        show host.tick currentMs completions order callbacks = host
        unfold TimerHost.tick
        rw [if_pos hfault]
      rw [hstays, hfault] at hafter
      cases hafter
  have htick : after = if polled.executionFaulted then polled else
      visited.foldl (visit callbacks) polled := by
    show host.tick currentMs completions order callbacks = _
    unfold TimerHost.tick
    rw [if_neg (by rw [hrun]; exact Bool.false_ne_true)]
  have hpolledRuns : polled.executionFaulted = false := by
    cases hfault : polled.executionFaulted with
    | false => rfl
    | true =>
      rw [htick, if_pos hfault, hfault] at hafter
      cases hafter
  rw [if_neg (by rw [hpolledRuns]; exact Bool.false_ne_true)] at htick
  -- the completions leave the row of the timer as it is
  have hrow : find name polled.timers = some timer := by
    rw [hdone.grows.kept hpolledRuns name fun event hmem =>
      ⟨fun hdisarms => hdisarmed ⟨event, hmem, hdisarms⟩,
        fun generation heq => hdone.quiet name generation (heq ▸ hmem)⟩]
    exact hfind
  have hvisited : (name, timer.generation) ∈ visited :=
    mem_visiting.mpr (mem_dueTimers.mpr ⟨timer, mem_of_find hrow, hactive, hdue, rfl⟩)
  obtain ⟨front, back, hsplit⟩ := List.append_of_mem hvisited
  refine ⟨front, back, hsplit, ?_⟩
  have hnames : (visited.map Prod.fst).Nodup := visiting_names hpolled order
  rw [hsplit, List.map_append, List.map_cons] at hnames
  have hother : ∀ generation, (name, generation) ∉ front := fun generation hmem =>
    (List.nodup_append.mp hnames).2.2 name (List.mem_map_of_mem hmem) name List.mem_cons_self rfl
  obtain ⟨second, hfront⟩ := visits_turns polled front callbacks
  have hbefore := hdone.grows.trans hfront.grows
  by_cases hturned : ∃ event ∈ first ++ second, event.Disarms name
  · rw [show added (front.foldl (visit callbacks) polled) = first ++ second from
      added_eq hbefore]
    exact Or.inl hturned
  refine Or.inr ?_
  -- its turn: the row is as it was, so it is handed over
  obtain ⟨third, hturn⟩ := visit_turn (front.foldl (visit callbacks) polled)
    (name, timer.generation) callbacks
  obtain ⟨fourth, hback⟩ := visits_turns ((front.foldl (visit callbacks) polled).visit
    callbacks (name, timer.generation)) back callbacks
  have hend : after = back.foldl (visit callbacks)
      ((front.foldl (visit callbacks) polled).visit callbacks
        (name, timer.generation)) := by
    rw [htick, hsplit, List.foldl_append, List.foldl_cons]
  rw [hend] at hafter
  have hrunsTurn := running_of_grows hback.grows hafter
  have hrunsFront := running_of_grows hturn.grows hrunsTurn
  have hkept := hfront.grows.kept hrunsFront name fun event hmem =>
    ⟨fun hdisarms => hturned ⟨event, List.mem_append_right _ hmem, hdisarms⟩,
      fun generation heq => hother generation (hfront.own name generation (heq ▸ hmem))⟩
  have hfires := hturn.fires hrunsTurn timer (hkept.trans hrow) hactive rfl
  have hall : added after = first ++ second ++ third ++ fourth := by
    rw [hend]
    exact added_eq ((hbefore.trans hturn.grows).trans hback.grows)
  rw [hall]
  exact List.mem_append_left _ (List.mem_append_right _ hfires)

end TimerHost

/-- **In every run an arming fires at most once and never after it was cancelled or armed anew;
and at every tick an arming of a timer's callback does not fire, and the timers that are due
fire, without a fault, unless they are disarmed before their turn.** -/
theorem timers_fire_once (steps : List TimerStep) :
    TimerLaws (TimerHost.run steps).events ∧
      ∀ currentMs completions order callbacks,
        FiresOld (TimerHost.run steps) currentMs completions order callbacks ∧
          DueFires (TimerHost.run steps) currentMs completions order callbacks :=
  have h := TimerHost.sound_run steps
  ⟨h.laws, fun currentMs completions order callbacks =>
    ⟨h.firesOld currentMs completions order callbacks,
      h.dueFires currentMs completions order callbacks⟩⟩

end ProtoScope.Scripting
