/-
What the worker counts of its queues.

The count of pending bytes goes up with the queue and down twice: when a bytes command is
executed, not when it is taken out, and when the queue is cleared.  So it always is what is
queued plus what is taken out and not yet executed, and no subtraction is cut off at zero.
The outputs have a limit that a command may lower below what is already queued; it is never
passed by adding.
-/
import ProtoScope.Proofs.Scripting.RxDelivery

namespace ProtoScope.Scripting

open ProtoScope.Transport ScriptRuntimeWorker

namespace ScriptRuntimeWorker

/-! ### The pending bytes -/

/-- What is queued and what is taken out and not yet executed. -/
def countedBytes (w : ScriptRuntimeWorker) : Nat := rxTotal (w.popped.toList ++ w.commands)

theorem rxTotal_appendBytes (config : ScriptRuntimeWorkerConfig) (mergeAdjacent : Bool)
    (event : TransportBytesEvent) (commands : List WorkerCommand) :
    rxTotal (appendBytes config mergeAdjacent event commands) =
      rxTotal commands + event.bytes.length := by
  rcases appendBytes_eq config mergeAdjacent event commands with
    h | ⟨front, previous, timestampMs, rfl, -, h⟩ <;> simp [h, rxLength, rxTotal, Nat.add_assoc]

/-- Two workers that agree on the queue, the command taken out, the count and the settings. -/
structure SameCount (w w' : ScriptRuntimeWorker) : Prop where
  commands : w'.commands = w.commands
  popped : w'.popped = w.popped
  pending : w'.pendingRxBytes = w.pendingRxBytes
  config : w'.config = w.config

/-- The count is right. -/
def Counts (w : ScriptRuntimeWorker) : Prop := w.pendingRxBytes = countedBytes w

variable {w w' : ScriptRuntimeWorker}

theorem Counts.of_same (h : Counts w) (hsame : SameCount w w') : Counts w' := by
  unfold Counts countedBytes
  rw [hsame.commands, hsame.popped, hsame.pending]
  exact h

theorem Warns.count (h : Warns w w') : SameCount w w' := by
  obtain ⟨_, _, rfl⟩ := h
  exact ⟨rfl, rfl, rfl, rfl⟩

theorem Counts.clear (h : Counts w) (hpopped : w.popped = none) : Counts w.clearQueuedRxLocked := by
  have htotal : w.pendingRxBytes = rxTotal w.commands := by
    have hcount := h
    unfold Counts countedBytes at hcount
    rwa [hpopped] at hcount
  have hplain : rxTotal (w.commands.filter isPlain) = 0 := by
    refine List.sum_eq_zero fun length hmem => ?_
    obtain ⟨command, hcommand, rfl⟩ := List.mem_map.mp hmem
    cases command with
    | bytes event => exact absurd (List.mem_filter.mp hcommand).2 Bool.false_ne_true
    | plain command => rfl
  rw [clearQueuedRxLocked_eq]
  unfold Counts countedBytes
  dsimp only
  rw [hpopped, htotal, Nat.sub_self]
  exact hplain.symm

/-! ### Accepting -/

theorem mergesInto_owner {config : ScriptRuntimeWorkerConfig} {previous event : TransportBytesEvent}
    (h : mergesInto config previous event = true) :
    previous.context.connectionId = event.context.connectionId ∧
      previous.context.readyForIo = event.context.readyForIo ∧
      previous.context.endpoint = event.context.endpoint := by
  unfold mergesInto at h
  simp only [Bool.and_eq_true, beq_iff_eq] at h
  exact ⟨h.1.1.1, h.1.1.2, h.1.2⟩

/-- Whose bytes they are: the connection, whether it was ready, and its endpoint. -/
def owner (context : ConnectionContext) : Nat × Bool × String :=
  (context.connectionId, context.readyForIo, context.endpoint)

/-- What a command stands for in the order of the queue: each byte with its owner, and the
other commands between them. -/
def owned : WorkerCommand → List (PlainCommand ⊕ (Nat × Bool × String) × UInt8)
  | .bytes event => event.bytes.map fun byte => .inr (owner event.context, byte)
  | .plain command => [.inl command]

/-- Merging or not, the queue goes on with the bytes of the event, under its owner. -/
theorem appendBytes_owned (config : ScriptRuntimeWorkerConfig) (mergeAdjacent : Bool)
    (event : TransportBytesEvent) (commands : List WorkerCommand) :
    (appendBytes config mergeAdjacent event commands).flatMap owned =
      commands.flatMap owned ++ owned (.bytes event) := by
  rcases appendBytes_eq config mergeAdjacent event commands with
    h | ⟨front, previous, timestampMs, rfl, hmerge, h⟩
  · simp [h]
  · obtain ⟨hid, hready, hendpoint⟩ := mergesInto_owner hmerge
    simp [h, owned, owner, hid, hready, hendpoint]

/-- Nothing is accepted: the worker stops or is off, or its warning is not yet withdrawn. -/
def Refuses (w : ScriptRuntimeWorker) (availableBytes : Nat) : Prop :=
  w.stopping = true ∨ w.config.enabled = false ∨
    w.rxBackpressureWarningActive = true ∧
      (acceptanceWatermarks w.config availableBytes).2 < w.pendingRxBytes

/-- The bytes of an event that fit below the high watermark, at most `maxBytes`. -/
def roomFor (w : ScriptRuntimeWorker) (availableBytes : Nat) (event : TransportBytesEvent)
    (maxBytes : Nat) : Nat :=
  min event.bytes.length
    (min maxBytes ((acceptanceWatermarks w.config availableBytes).1 - w.pendingRxBytes))

/-- What `tryPushBytes` does where it accepts `count` bytes from the front. -/
structure Accepted (w : ScriptRuntimeWorker) (event : TransportBytesEvent) (mergeAdjacent : Bool)
    (count : Nat) (w' : ScriptRuntimeWorker) : Prop where
  pending : w'.pendingRxBytes = w.pendingRxBytes + count
  kept : count = 0 → w'.commands = w.commands
  queued : count ≠ 0 → w'.commands =
    appendBytes w.config mergeAdjacent { event with bytes := event.bytes.take count } w.commands
  popped : w'.popped = w.popped
  config : w'.config = w.config

theorem Accepted.none {event : TransportBytesEvent} {mergeAdjacent : Bool} (h : SameCount w w') :
    Accepted w event mergeAdjacent 0 w' :=
  ⟨h.pending, fun _ => h.commands, fun hne => absurd rfl hne, h.popped, h.config⟩

/-- The bytes are appended, and at most the warning is raised. -/
theorem Accepted.some {active : Bool} {event : TransportBytesEvent} {mergeAdjacent : Bool}
    {count highWater : Nat} (hcount : count ≠ 0) :
    Accepted w event mergeAdjacent count
      (warnAtHighWater
        { w with
          rxBackpressureWarningActive := active
          commands := appendBytes w.config mergeAdjacent
            { event with bytes := event.bytes.take count } w.commands
          pendingRxBytes := w.pendingRxBytes + count } highWater) := by
  obtain ⟨hcommands, hpopped, hpending, hconfig⟩ := (warnAtHighWater_warns
    { w with
      rxBackpressureWarningActive := active
      commands := appendBytes w.config mergeAdjacent
        { event with bytes := event.bytes.take count } w.commands
      pendingRxBytes := w.pendingRxBytes + count } highWater).count
  exact ⟨hpending, fun hzero => absurd hzero hcount, fun _ => hcommands, hpopped, hconfig⟩

/-- Where the worker does not refuse it takes what fits, from the front. -/
theorem tryPushBytes_accepts (w : ScriptRuntimeWorker) (availableBytes : Nat)
    (event : TransportBytesEvent) (maxBytes : Nat) (mergeAdjacent : Bool) :
    let result := w.tryPushBytes availableBytes event maxBytes mergeAdjacent
    (Refuses w availableBytes → result.2 = 0) ∧
      (¬ Refuses w availableBytes → result.2 = roomFor w availableBytes event maxBytes) ∧
      Accepted w event mergeAdjacent result.2 result.1 := by
  unfold Refuses roomFor tryPushBytes
  rcases acceptanceWatermarks w.config availableBytes with ⟨highWater, lowWater⟩
  dsimp only
  by_cases hshut : (event.bytes.isEmpty || w.stopping || !w.config.enabled || maxBytes == 0 ||
      !(decide (0 < highWater) || rxQueueBudgetBytes w.config availableBytes == 0)) = true
  · rw [if_pos hshut]
    refine ⟨fun _ => rfl, fun hopen => ?_, Accepted.none ⟨rfl, rfl, rfl, rfl⟩⟩
    simp only [Bool.or_eq_true, List.isEmpty_iff, Bool.not_eq_true', beq_iff_eq,
      Bool.or_eq_false_iff, decide_eq_false_iff_not] at hshut
    rw [not_or, not_or] at hopen
    rcases hshut with (((hempty | hstop) | hoff) | hmax) | hwater
    · rw [hempty]
      exact (Nat.zero_min _).symm
    · exact absurd hstop hopen.1
    · exact absurd hoff hopen.2.1
    · rw [hmax]
      simp
    · omega
  · rw [if_neg hshut]
    simp only [Bool.or_eq_true, List.isEmpty_iff, Bool.not_eq_true', beq_iff_eq,
      Bool.or_eq_false_iff, decide_eq_false_iff_not, not_or] at hshut
    obtain ⟨⟨⟨⟨hempty, hstop⟩, hoff⟩, hmax⟩, -⟩ := hshut
    have hlength : 0 < event.bytes.length := List.length_pos_of_ne_nil hempty
    by_cases hlow : w.pendingRxBytes ≤ lowWater
    · rw [if_pos hlow]
      have haccepts : ¬ (w.stopping = true ∨ w.config.enabled = false ∨
          w.rxBackpressureWarningActive = true ∧ lowWater < w.pendingRxBytes) := by
        rintro (hc | hc | hc)
        · exact hstop hc
        · exact hoff hc
        · omega
      by_cases hroom : w.pendingRxBytes < highWater
      · rw [if_pos ⟨hroom, fun hc => by cases hc.1⟩]
        exact ⟨fun hrefuses => absurd hrefuses haccepts, fun _ => rfl,
          Accepted.some (by dsimp only; omega)⟩
      · rw [if_neg (fun hc => hroom hc.1)]
        obtain ⟨_, _, hwarns⟩ := warnAtHighWater_warns
          { w with rxBackpressureWarningActive := false } highWater
        exact ⟨fun _ => rfl, fun _ => by omega, Accepted.none (Warns.count ⟨_, _, hwarns⟩)⟩
    · rw [if_neg hlow]
      by_cases hactive : w.rxBackpressureWarningActive = true
      · rw [if_neg (fun hc => hc.2 ⟨hactive, Nat.lt_of_not_le hlow⟩)]
        exact ⟨fun _ => rfl,
          fun hopen => absurd (Or.inr (Or.inr ⟨hactive, Nat.lt_of_not_le hlow⟩)) hopen,
          Accepted.none (warnAtHighWater_warns w highWater).count⟩
      · have haccepts : ¬ (w.stopping = true ∨ w.config.enabled = false ∨
            w.rxBackpressureWarningActive = true ∧ lowWater < w.pendingRxBytes) := by
          rintro (hc | hc | hc)
          · exact hstop hc
          · exact hoff hc
          · exact hactive hc.1
        by_cases hroom : w.pendingRxBytes < highWater
        · rw [if_pos ⟨hroom, fun hc => hactive hc.1⟩]
          exact ⟨fun hrefuses => absurd hrefuses haccepts, fun _ => rfl,
            Accepted.some (by dsimp only; omega)⟩
        · rw [if_neg (fun hc => hroom hc.1)]
          exact ⟨fun _ => rfl, fun _ => by omega,
            Accepted.none (warnAtHighWater_warns w highWater).count⟩

/-! ### One step -/

/-- Bytes are counted where they are appended. -/
theorem Counts.of_append {event : TransportBytesEvent} {mergeAdjacent : Bool} (h : Counts w)
    (hcommands : w'.commands = appendBytes w.config mergeAdjacent event w.commands)
    (hpopped : w'.popped = w.popped)
    (hpending : w'.pendingRxBytes = w.pendingRxBytes + event.bytes.length) : Counts w' := by
  unfold Counts countedBytes at h ⊢
  rw [hcommands, hpopped, hpending, h, rxTotal_append, rxTotal_append, rxTotal_appendBytes,
    Nat.add_assoc]

theorem pushBytes_counts (event : TransportBytesEvent) (mergeAdjacent : Bool) (h : Counts w) :
    Counts (w.pushBytes event mergeAdjacent) := by
  unfold pushBytes
  split
  · exact h
  · exact h.of_append rfl rfl rfl

theorem tryPushBytes_counts (availableBytes : Nat) (event : TransportBytesEvent) (maxBytes : Nat)
    (mergeAdjacent : Bool) (h : Counts w) :
    Counts (w.tryPushBytes availableBytes event maxBytes mergeAdjacent).1 := by
  obtain ⟨-, -, haccepted⟩ := tryPushBytes_accepts w availableBytes event maxBytes mergeAdjacent
  have hlength : (event.bytes.take
      (w.tryPushBytes availableBytes event maxBytes mergeAdjacent).2).length =
      (w.tryPushBytes availableBytes event maxBytes mergeAdjacent).2 := by
    obtain ⟨hrefuses, htakes, -⟩ := tryPushBytes_accepts w availableBytes event maxBytes
      mergeAdjacent
    rw [List.length_take]
    by_cases hrefused : Refuses w availableBytes
    · rw [hrefuses hrefused, Nat.zero_min]
    · rw [htakes hrefused]
      exact Nat.min_eq_left (Nat.min_le_left ..)
  by_cases hnone : (w.tryPushBytes availableBytes event maxBytes mergeAdjacent).2 = 0
  · refine h.of_same ⟨haccepted.kept hnone, haccepted.popped, ?_, haccepted.config⟩
    rw [haccepted.pending, hnone, Nat.add_zero]
  · refine h.of_append (haccepted.queued hnone) haccepted.popped ?_
    rw [haccepted.pending]
    dsimp only
    rw [hlength]

/-- The command moves out of the queue with its bytes. -/
theorem popCommand_counts (h : Counts w) : Counts w.popCommand := by
  unfold popCommand
  split
  · rename_i hpopped _ hcommands
    unfold Counts countedBytes at h ⊢
    rw [h, hpopped, hcommands]
    rfl
  · exact h

/-- What is subtracted is what was counted, so nothing is cut off. -/
theorem handleHostBytesCommand_counts (availableBytes : Nat) {event : TransportBytesEvent}
    (h : Counts w) (hpopped : w.popped = some (.bytes event)) :
    Counts (w.executeCommand availableBytes) := by
  have hsubtracted : ∀ w₀ : ScriptRuntimeWorker,
      SameCount
        { w₀ with
          pendingRxBytes := w₀.pendingRxBytes - min w₀.pendingRxBytes event.bytes.length }
        (w₀.handleHostBytesCommand availableBytes event) := by
    intro w₀
    obtain ⟨_, _, hsubtract⟩ :=
      subtractPendingRxBytes_warns w₀ availableBytes event.bytes.length
    dsimp only [handleHostBytesCommand]
    rw [hsubtract]
    split
    · split <;> exact ⟨rfl, rfl, rfl, rfl⟩
    · exact ⟨rfl, rfl, rfl, rfl⟩
  have hexecute : w.executeCommand availableBytes =
      { w with popped := none, executed := some (.bytes event) }.handleHostBytesCommand
        availableBytes event := by
    simp only [executeCommand, hpopped]
  rw [hexecute]
  refine Counts.of_same ?_ (hsubtracted _)
  unfold Counts countedBytes at h ⊢
  rw [hpopped] at h
  have htotal : w.pendingRxBytes = event.bytes.length + rxTotal w.commands := h
  show w.pendingRxBytes - min w.pendingRxBytes event.bytes.length = rxTotal w.commands
  omega

theorem executePlain_counts (command : PlainCommand) (h : Counts w) (hpopped : w.popped = none) :
    Counts (w.executePlain command) := by
  have hcleared : ∀ w : ScriptRuntimeWorker, Counts w → w.popped = none →
      Counts w.clearQueuedRxLocked := fun w h hpopped => h.clear hpopped
  cases command with
  | reloadProtocol directory => exact (hcleared w h hpopped).of_same ⟨rfl, rfl, rfl, rfl⟩
  | resetStreamReplayState => exact (hcleared w h hpopped).of_same ⟨rfl, rfl, rfl, rfl⟩
  | close context =>
    dsimp only [executePlain]
    split <;> exact hcleared _ (h.of_same ⟨rfl, rfl, rfl, rfl⟩) hpopped
  | «open» context =>
    dsimp only [executePlain]
    split <;> exact h.of_same ⟨rfl, rfl, rfl, rfl⟩
  | _ => exact h

theorem executeCommand_counts (availableBytes : Nat) (h : Counts w) :
    Counts (w.executeCommand availableBytes) := by
  cases hpopped : w.popped with
  | none =>
    unfold executeCommand
    rw [hpopped]
    exact h
  | some command =>
    cases command with
    | bytes event => exact handleHostBytesCommand_counts availableBytes h hpopped
    | plain command =>
      have hexecute : w.executeCommand availableBytes =
          { w with popped := none, executed := some (.plain command) }.executePlain command := by
        simp only [executeCommand, hpopped]
      rw [hexecute]
      refine executePlain_counts command ?_ rfl
      unfold Counts countedBytes at h ⊢
      rw [hpopped] at h
      exact h.trans (Nat.zero_add _)

theorem publish_count (w : ScriptRuntimeWorker) (batch : ScriptRuntimeOutputBatch) :
    SameCount w (w.publish batch) := by
  unfold publish
  split
  · exact ⟨rfl, rfl, rfl, rfl⟩
  · split
    · unfold publishOutputs
      split <;> exact ⟨rfl, rfl, rfl, rfl⟩
    · exact ⟨rfl, rfl, rfl, rfl⟩

theorem Counts.step (h : Counts w) (step : WorkerStep) : Counts (w.step step) := by
  cases step with
  | pushCommand command =>
    dsimp only [ScriptRuntimeWorker.step, pushCommand]
    split
    · exact h
    · unfold Counts countedBytes at h ⊢
      rw [h]
      simp [rxLength, rxTotal]
  | pushBytes event mergeAdjacent => exact pushBytes_counts event mergeAdjacent h
  | tryPushBytes availableBytes event maxBytes mergeAdjacent =>
    exact tryPushBytes_counts availableBytes event maxBytes mergeAdjacent h
  | beginRxWait availableBytes => exact h.of_same (beginRxWait_warns w availableBytes).count
  | endRxWait availableBytes => exact h.of_same (endRxWait_warns w availableBytes).count
  | popCommand => exact popCommand_counts h
  | executeCommand availableBytes => exact executeCommand_counts availableBytes h
  | publish batch => exact h.of_same (publish_count w batch)
  | drainOutputs => exact h
  | drainOneOutput => exact h
  | requestStop => exact h

theorem counts_run (steps : List WorkerStep) : Counts (run steps) := by
  have key : ∀ (steps : List WorkerStep) (w : ScriptRuntimeWorker), Counts w →
      Counts (steps.foldl step w) := by
    intro steps
    induction steps with
    | nil => exact fun w h => h
    | cons step steps ih => exact fun w h => ih (w.step step) (h.step step)
  exact key steps {} rfl

/-! ### The outputs -/

/-- A step adds at most one batch, and none where the limit is reached. -/
def AddsBelowLimit (w w' : ScriptRuntimeWorker) : Prop :=
  w'.outputs.length ≤ w.outputs.length ∨ w.config.outputQueueLimit = 0 ∨
    w.outputs.length < w.config.outputQueueLimit ∧ w'.outputs.length = w.outputs.length + 1

theorem AddsBelowLimit.of_eq (h : w'.outputs = w.outputs) : AddsBelowLimit w w' :=
  Or.inl (Nat.le_of_eq (congrArg List.length h))

theorem pushRxBackpressureWarningLocked_limit (w : ScriptRuntimeWorker)
    (pendingBytes highWaterBytes : Nat) :
    AddsBelowLimit w (w.pushRxBackpressureWarningLocked pendingBytes highWaterBytes) := by
  unfold pushRxBackpressureWarningLocked
  split
  · exact .of_eq rfl
  · rename_i hbelow
    simp only [Bool.and_eq_true, decide_eq_true_eq, not_and, Nat.not_le] at hbelow
    rcases Nat.eq_zero_or_pos w.config.outputQueueLimit with hzero | hpos
    · exact Or.inr (Or.inl hzero)
    · exact Or.inr (Or.inr ⟨hbelow hpos, List.length_append⟩)

theorem warnAtHighWater_limit (w : ScriptRuntimeWorker) (highWater : Nat) :
    AddsBelowLimit w (w.warnAtHighWater highWater) := by
  unfold warnAtHighWater
  split
  · exact pushRxBackpressureWarningLocked_limit { w with rxBackpressureWarningActive := true } _ _
  · exact .of_eq rfl

theorem beginRxWait_limit (w : ScriptRuntimeWorker) (availableBytes : Nat) :
    AddsBelowLimit w (w.beginRxWait availableBytes) := by
  unfold beginRxWait
  split
  split
  · exact .of_eq rfl
  · exact pushRxBackpressureWarningLocked_limit { w with rxBackpressureWarningActive := true } _ _

theorem tryPushBytes_limit (w : ScriptRuntimeWorker) (availableBytes : Nat)
    (event : TransportBytesEvent) (maxBytes : Nat) (mergeAdjacent : Bool) :
    AddsBelowLimit w (w.tryPushBytes availableBytes event maxBytes mergeAdjacent).1 := by
  have hwarns : ∀ w₁ : ScriptRuntimeWorker, w₁.outputs = w.outputs → w₁.config = w.config →
      ∀ highWater, AddsBelowLimit w (w₁.warnAtHighWater highWater) := by
    intro w₁ houtputs hconfig highWater
    have hlimit := warnAtHighWater_limit w₁ highWater
    unfold AddsBelowLimit at hlimit ⊢
    rwa [houtputs, hconfig] at hlimit
  unfold tryPushBytes
  split
  split
  · exact .of_eq rfl
  · dsimp only
    rename_i highWater lowWater _ _
    have hsame : ∀ p : Prop, ∀ _ : Decidable p,
        (if p then { w with rxBackpressureWarningActive := false } else w).outputs = w.outputs ∧
        (if p then { w with rxBackpressureWarningActive := false } else w).config = w.config := by
      intro p _
      split <;> exact ⟨rfl, rfl⟩
    obtain ⟨houtputs, hconfig⟩ := hsame (w.pendingRxBytes ≤ lowWater) inferInstance
    generalize (if w.pendingRxBytes ≤ lowWater then
      { w with rxBackpressureWarningActive := false } else w) = w₁ at *
    split
    · exact hwarns
        { w₁ with
          commands := appendBytes w₁.config mergeAdjacent
            { event with
              bytes := event.bytes.take
                (min event.bytes.length (min maxBytes (highWater - w₁.pendingRxBytes))) }
            w₁.commands
          pendingRxBytes := w₁.pendingRxBytes +
            min event.bytes.length (min maxBytes (highWater - w₁.pendingRxBytes)) }
        houtputs hconfig highWater
    · exact hwarns w₁ houtputs hconfig highWater

/-- The worker publishes where there is room, or no limit, or drops the batch at the stop. -/
theorem publish_limit (w : ScriptRuntimeWorker) (batch : ScriptRuntimeOutputBatch) :
    AddsBelowLimit w (w.publish batch) := by
  unfold publish
  split
  · exact .of_eq rfl
  · split
    · rename_i hcan
      unfold canPublish at hcan
      unfold publishOutputs
      split
      · exact .of_eq rfl
      · rename_i hpublished
        simp only [Bool.or_eq_true, Bool.and_eq_true, Bool.not_eq_true', decide_eq_true_eq, not_or,
          not_and, Bool.not_eq_true, Bool.not_eq_false, beq_iff_eq] at hcan hpublished
        rcases Nat.eq_zero_or_pos w.config.outputQueueLimit with hzero | hpos
        · exact Or.inr (Or.inl hzero)
        · refine Or.inr (Or.inr ⟨?_, List.length_append⟩)
          rcases hcan with ((hempty | hzero) | hstopping) | hbelow
          · rw [hpublished.1] at hempty
            cases hempty
          · omega
          · rw [hpublished.2 hpos] at hstopping
            cases hstopping
          · exact hbelow
    · exact .of_eq rfl

theorem clearQueuedRxLocked_outputs (w : ScriptRuntimeWorker) :
    w.clearQueuedRxLocked.outputs = w.outputs := by
  rw [clearQueuedRxLocked_eq]

theorem handleHostBytesCommand_outputs (w : ScriptRuntimeWorker) (availableBytes : Nat)
    (event : TransportBytesEvent) :
    (w.handleHostBytesCommand availableBytes event).outputs = w.outputs := by
  have hsubtract : (w.subtractPendingRxBytes availableBytes event.bytes.length).outputs =
      w.outputs := by
    have hwarning : ∀ (w : ScriptRuntimeWorker) (p : Prop) [Decidable p],
        (if p then { w with rxBackpressureWarningActive := false } else w).outputs =
          w.outputs := by
      intro w p _
      split <;> rfl
    exact hwarning _ _
  dsimp only [handleHostBytesCommand]
  split
  · split <;> exact hsubtract
  · exact hsubtract

theorem executeCommand_limit (w : ScriptRuntimeWorker) (availableBytes : Nat) :
    AddsBelowLimit w (w.executeCommand availableBytes) := by
  unfold executeCommand
  split
  · exact .of_eq rfl
  · rename_i command _
    cases command with
    | bytes event => exact .of_eq (handleHostBytesCommand_outputs _ availableBytes event)
    | plain command =>
      cases command with
      | reloadProtocol directory => exact .of_eq (clearQueuedRxLocked_outputs _)
      | resetStreamReplayState => exact .of_eq (clearQueuedRxLocked_outputs _)
      | clearRealtimeOutputs => exact Or.inl (Nat.zero_le _)
      | close context =>
        refine .of_eq ?_
        dsimp only [executePlain]
        split <;> exact clearQueuedRxLocked_outputs _
      | «open» context =>
        refine .of_eq ?_
        dsimp only [executePlain]
        split <;> rfl
      | _ => exact .of_eq rfl

theorem step_limit (w : ScriptRuntimeWorker) (step : WorkerStep) :
    AddsBelowLimit w (w.step step) := by
  cases step with
  | pushCommand command =>
    dsimp only [step, pushCommand]
    split <;> exact .of_eq rfl
  | pushBytes event mergeAdjacent =>
    dsimp only [step, pushBytes]
    split <;> exact .of_eq rfl
  | tryPushBytes availableBytes event maxBytes mergeAdjacent =>
    exact tryPushBytes_limit w availableBytes event maxBytes mergeAdjacent
  | beginRxWait availableBytes => exact beginRxWait_limit w availableBytes
  | endRxWait availableBytes =>
    dsimp only [step, endRxWait]
    split <;> exact .of_eq rfl
  | popCommand =>
    dsimp only [step, popCommand]
    split <;> exact .of_eq rfl
  | executeCommand availableBytes => exact executeCommand_limit w availableBytes
  | publish batch => exact publish_limit w batch
  | drainOutputs => exact Or.inl (Nat.zero_le _)
  | drainOneOutput => exact Or.inl (List.tail_suffix w.outputs).length_le
  | requestStop => exact .of_eq rfl

/-- In a run that always has a limit the outputs stay within the largest one so far. -/
theorem outputs_le (limit : Nat) (steps : List WorkerStep)
    (h : ∀ entry ∈ trace {} steps,
      0 < entry.1.config.outputQueueLimit ∧ entry.1.config.outputQueueLimit ≤ limit) :
    (run steps).outputs.length ≤ limit := by
  have key : ∀ (steps : List WorkerStep) (w : ScriptRuntimeWorker), w.outputs.length ≤ limit →
      (∀ entry ∈ trace w steps,
        0 < entry.1.config.outputQueueLimit ∧ entry.1.config.outputQueueLimit ≤ limit) →
      (steps.foldl step w).outputs.length ≤ limit := by
    intro steps
    induction steps with
    | nil => exact fun w hw _ => hw
    | cons step steps ih =>
      intro w hw hlimits
      obtain ⟨hpos, hle⟩ := hlimits (w, step) List.mem_cons_self
      dsimp only at hpos hle
      refine ih (w.step step) ?_ fun entry hentry => hlimits entry (List.mem_cons_of_mem _ hentry)
      rcases step_limit w step with hsame | hzero | ⟨hbelow, hone⟩ <;> omega
  exact key steps {} (Nat.zero_le limit) h

/-! ### The accounting -/

/-- What is subtracted, at the execution or at the clearing, is counted. -/
theorem counted_le (h : Counts w) :
    (∀ event, w.popped = some (.bytes event) → event.bytes.length ≤ w.pendingRxBytes) ∧
      rxTotal w.commands ≤ w.pendingRxBytes := by
  unfold Counts countedBytes at h
  rw [rxTotal_append] at h
  refine ⟨fun event hpopped => ?_, by omega⟩
  rw [hpopped] at h
  have htotal : rxTotal (some (WorkerCommand.bytes event)).toList = event.bytes.length := rfl
  omega

/-- What an accepting step does to the bytes in the queue and their owners. -/
theorem tryPushBytes_owned (w : ScriptRuntimeWorker) (availableBytes : Nat)
    (event : TransportBytesEvent) (maxBytes : Nat) (mergeAdjacent : Bool) :
    let result := w.tryPushBytes availableBytes event maxBytes mergeAdjacent
    result.1.commands.flatMap owned =
      w.commands.flatMap owned ++
        owned (.bytes { event with bytes := event.bytes.take result.2 }) := by
  dsimp only
  obtain ⟨-, -, haccepted⟩ := tryPushBytes_accepts w availableBytes event maxBytes mergeAdjacent
  by_cases hnone : (w.tryPushBytes availableBytes event maxBytes mergeAdjacent).2 = 0
  · rw [haccepted.kept hnone, hnone]
    simp [owned]
  · rw [haccepted.queued hnone, appendBytes_owned]

/-- **The pending count is what is queued and what is taken out and not yet executed, so
nothing that is subtracted exceeds it.**  Where the worker is neither stopping nor off, nor
holds its warning above the low watermark, `tryPushBytes` takes from the front what fits below
the high watermark and passes it never; the queue goes on with these bytes under their owner,
joined to its last command or not.  Outputs are added only below the limit in force. -/
theorem rx_queue_accounting (steps : List WorkerStep) :
    (run steps).pendingRxBytes = countedBytes (run steps) ∧
      (∀ event, (run steps).popped = some (.bytes event) →
        event.bytes.length ≤ (run steps).pendingRxBytes) ∧
      rxTotal (run steps).commands ≤ (run steps).pendingRxBytes ∧
      (∀ availableBytes event maxBytes mergeAdjacent,
        let result := (run steps).tryPushBytes availableBytes event maxBytes mergeAdjacent
        (Refuses (run steps) availableBytes → result.2 = 0) ∧
          (¬ Refuses (run steps) availableBytes →
            result.2 = roomFor (run steps) availableBytes event maxBytes) ∧
          result.1.pendingRxBytes = (run steps).pendingRxBytes + result.2 ∧
          result.1.pendingRxBytes ≤ max (run steps).pendingRxBytes
            (acceptanceWatermarks (run steps).config availableBytes).1 ∧
          result.1.commands.flatMap owned = (run steps).commands.flatMap owned ++
            owned (.bytes { event with bytes := event.bytes.take result.2 })) ∧
      (∀ event mergeAdjacent, (run steps).stopping = false →
        ((run steps).pushBytes event mergeAdjacent).commands.flatMap owned =
          (run steps).commands.flatMap owned ++ owned (.bytes event)) ∧
      (∀ step, AddsBelowLimit (run steps) ((run steps).step step)) ∧
      ∀ limit, (∀ entry ∈ trace {} steps,
          0 < entry.1.config.outputQueueLimit ∧ entry.1.config.outputQueueLimit ≤ limit) →
        (run steps).outputs.length ≤ limit := by
  have hcounts := counts_run steps
  refine ⟨hcounts, (counted_le hcounts).1, (counted_le hcounts).2, ?_, ?_, step_limit (run steps),
    fun limit => outputs_le limit steps⟩
  · intro availableBytes event maxBytes mergeAdjacent
    obtain ⟨hrefuses, htakes, haccepted⟩ :=
      tryPushBytes_accepts (run steps) availableBytes event maxBytes mergeAdjacent
    refine ⟨hrefuses, htakes, haccepted.pending, ?_,
      tryPushBytes_owned (run steps) availableBytes event maxBytes mergeAdjacent⟩
    rw [haccepted.pending]
    by_cases hrefused : Refuses (run steps) availableBytes
    · rw [hrefuses hrefused]
      exact Nat.le_max_left ..
    · rw [htakes hrefused]
      unfold roomFor
      omega
  · intro event mergeAdjacent hrunning
    unfold pushBytes
    rw [hrunning, Bool.or_false]
    split
    · rename_i hempty
      simp [owned, List.isEmpty_iff.mp hempty]
    · exact appendBytes_owned ..

/-- The bytes of the run below: one connection with a queue of eight bytes. -/
def eightByteQueue : ScriptRuntimeWorkerConfig where
  rxQueueLimitBytes := 8
  backpressureHighWatermark := Float.ofBits 0x3FF0000000000000
  backpressureLowWatermark := Float.ofBits 0

def rxEvent (bytes : List UInt8) : TransportBytesEvent where
  context := { connectionId := 1 }
  bytes := bytes

/-- A byte is refused though five of eight are free, as the warning is not yet withdrawn; and
two batches are queued when the limit becomes one. -/
theorem warned_queue_refuses_a_byte :
    let warned := run
      [.pushCommand (.configure eightByteQueue), .popCommand, .executeCommand 0, .publish {},
        .tryPushBytes 0 (rxEvent [1, 2, 3, 4, 5]) 64 false,
        .tryPushBytes 0 (rxEvent [6, 7, 8]) 64 false, .popCommand, .executeCommand 0]
    let lowered := run
      [.pushCommand .idle, .pushCommand .idle, .pushCommand (.budgetSettings 0 0 1 8192),
        .popCommand, .executeCommand 0, .publish (rxBackpressureWarning 0 0),
        .popCommand, .executeCommand 0, .publish (rxBackpressureWarning 0 0),
        .popCommand, .executeCommand 0]
    (warned.pendingRxBytes = 3 ∧ (acceptanceWatermarks warned.config 0).1 = 8 ∧
        (warned.tryPushBytes 0 (rxEvent [9]) 64 false).2 = 0) ∧
      lowered.config.outputQueueLimit = 1 ∧ lowered.outputs.length = 2 := by
  decide +kernel

end ScriptRuntimeWorker

end ProtoScope.Scripting
