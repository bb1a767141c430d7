/-
A rebuild against the same rebuild on an unbounded buffer.

The slices depend on the schema's capacity and not on the ring behind the parser, so the
same run can be made on rings of any size.  Two parsers that hold the same bytes make the
same of a slice that fits both rings, and so a run whose every slice fits gives the rows of
a ring that never overflows.  A slice of half the capacity need not fit: what waits for the
rest of a frame may be almost a whole frame.
-/
import ProtoScope.App.HistoryRebuild
import ProtoScope.Proofs.Scripting.ResidualBound

namespace ProtoScope.Scripting.FrameStreamParser

open ByteRingBuffer

/-- The same configuration and the same bytes, in rings of any size. -/
structure Alike (p q : FrameStreamParser) : Prop where
  config : p.toFrameStreamConfig = q.toFrameStreamConfig
  contents : p.buffer.contents = q.buffer.contents

variable {p q : FrameStreamParser} {options : StreamParseOptions}

theorem Alike.size (h : p.Alike q) : p.buffer.size = q.buffer.size := by
  rw [← length_contents, ← length_contents, h.contents]

theorem Alike.discardFront (h : p.Alike q) (n : Nat) : (p.discardFront n).Alike (q.discardFront n) where
  config := h.config
  contents := by rw [contents_discardFront, contents_discardFront, h.contents]

/-- Batches that say the same, but for the sizes of the rings. -/
structure SameResults (b c : StreamParseBatch) : Prop where
  frames : b.frames = c.frames
  errors : b.errors = c.errors

variable {b c : StreamParseBatch}

theorem SameResults.pushFrame (h : SameResults b c) (frame : StreamParsedFrame) :
    SameResults (b.pushFrame frame) (c.pushFrame frame) :=
  ⟨congrArg (· ++ [frame]) h.frames, h.errors⟩

theorem SameResults.pushError (h : SameResults b c) (error : StreamParseError) :
    SameResults (b.pushError error) (c.pushError error) :=
  ⟨h.frames, congrArg (· ++ [error]) h.errors⟩

/-- One turn of the scan does the same to both. -/
theorem Alike.scanStep (h : p.Alike q) (hbatch : SameResults b c) (options : StreamParseOptions) :
    (∃ p' q' b' c', p.scanStep options b = .stop p' b' ∧ q.scanStep options c = .stop q' c' ∧
        p'.Alike q' ∧ SameResults b' c') ∨
      ∃ p' q' b' c', p.scanStep options b = .next p' b' ∧ q.scanStep options c = .next q' c' ∧
        p'.Alike q' ∧ SameResults b' c' := by
  unfold FrameStreamParser.scanStep discardUnmatchedPrefix
  simp only [ensureLinearWindow_eq, h.contents, h.config, h.size]
  cases q.findCandidate q.buffer.contents with
  | none =>
    simp only
    split_ifs
    · exact .inl ⟨p, q, b, c, rfl, rfl, h, hbatch⟩
    · exact .inl ⟨_, _, _, _, rfl, rfl, h.discardFront _, hbatch.pushError _⟩
    · exact .inl ⟨p, q, b, c, rfl, rfl, h, hbatch⟩
    · exact .inl ⟨_, _, _, _, rfl, rfl, h.discardFront _, hbatch.pushError _⟩
  | some candidate =>
    simp only
    split_ifs
    · exact .inr ⟨_, _, _, _, rfl, rfl, h.discardFront _, hbatch.pushError _⟩
    · cases q.analyzeCandidateFrames candidate q.buffer.contents options with
      | parsed frame n => exact .inr ⟨_, _, _, _, rfl, rfl, h.discardFront _, hbatch.pushFrame _⟩
      | needMore => exact .inl ⟨p, q, b, c, rfl, rfl, h, hbatch⟩
      | recoverableError error =>
        cases error with
        | none => exact .inr ⟨_, _, _, _, rfl, rfl, h.discardFront _, hbatch⟩
        | some error => exact .inr ⟨_, _, _, _, rfl, rfl, h.discardFront _, hbatch.pushError _⟩

/-- So does the whole scan. -/
theorem Alike.scanLoop (h : p.Alike q) (hbatch : SameResults b c) (options : StreamParseOptions)
    (fuel : Nat) :
    (scanLoop options fuel p b).1.Alike (scanLoop options fuel q c).1 ∧
      SameResults (scanLoop options fuel p b).2 (scanLoop options fuel q c).2 := by
  induction fuel generalizing p q b c with
  | zero => exact ⟨h, hbatch⟩
  | succ fuel ih =>
    unfold FrameStreamParser.scanLoop empty
    rw [h.size]
    by_cases hempty : (q.buffer.size == 0) = true
    · rw [if_pos hempty, if_pos hempty]
      exact ⟨h, hbatch⟩
    · rw [if_neg hempty, if_neg hempty]
      rcases h.scanStep hbatch options with
        ⟨p', q', b', c', hp, hq, halike, hsame⟩ | ⟨p', q', b', c', hp, hq, halike, hsame⟩ <;>
        rw [hp, hq]
      · exact ⟨halike, hsame⟩
      · exact ih halike hsame

/-- The bytes fit the ring behind the parser. -/
def Fits (parser : FrameStreamParser) (bytes : List UInt8) : Prop :=
  parser.buffer.size + bytes.length ≤ parser.buffer.capacity

theorem Fits.overflowed {parser : FrameStreamParser} {bytes : List UInt8} (h : parser.Fits bytes) :
    (parser.appendIncomingBytes bytes).2.overflowed = false := by
  obtain ⟨hdropped, hflag⟩ := appendIncomingBytes_dropped parser bytes
  unfold Fits at h
  rw [hflag, hdropped, decide_eq_false_iff_not, (ensureAppendCapacity_spec _ _).2.2]
  split_ifs <;> omega

theorem appendIncomingBytes_bufferSize (parser : FrameStreamParser) (bytes : List UInt8) :
    (parser.appendIncomingBytes bytes).2.bufferSize
      = (parser.appendIncomingBytes bytes).1.buffer.size := by
  unfold appendIncomingBytes updateNearOverflowStatus
  simp only
  split_ifs <;> rfl

/-- **A push that fits is the same push on any ring that it fits.** -/
theorem Alike.pushBytes (h : p.Alike q) {bytes : List UInt8} (hp : p.Fits bytes) (hq : q.Fits bytes) :
    (p.pushBytes bytes {}).1.Alike (q.pushBytes bytes {}).1 ∧
      SameResults (p.pushBytes bytes {}).2 (q.pushBytes bytes {}).2 ∧
      (p.pushBytes bytes {}).2.bufferSize = (q.pushBytes bytes {}).2.bufferSize := by
  by_cases hbytes : bytes = []
  · simp only [FrameStreamParser.pushBytes, if_pos hbytes]
    exact ⟨h, ⟨rfl, rfl⟩, h.size⟩
  have happended : (p.appendIncomingBytes bytes).1.Alike (q.appendIncomingBytes bytes).1 := by
    refine ⟨?_, ?_⟩
    · rw [appendIncomingBytes_config, appendIncomingBytes_config, h.config]
    · rw [(appendIncomingBytes_lossless hp.overflowed).1,
        (appendIncomingBytes_lossless hq.overflowed).1, h.contents]
  have hbatch : SameResults (p.appendIncomingBytes bytes).2 (q.appendIncomingBytes bytes).2 := by
    refine ⟨?_, ?_⟩
    · rw [appendIncomingBytes_frames, appendIncomingBytes_frames]
    · rw [(appendIncomingBytes_quiet hp.overflowed).2, (appendIncomingBytes_quiet hq.overflowed).2]
  by_cases hframes : (q.appendIncomingBytes bytes).1.frames = []
  · have hframes' : (p.appendIncomingBytes bytes).1.frames = [] := by
      rw [happended.config]
      exact hframes
    simp only [FrameStreamParser.pushBytes, if_neg hbytes, if_pos hframes, if_pos hframes']
    refine ⟨happended, hbatch, ?_⟩
    rw [appendIncomingBytes_bufferSize, appendIncomingBytes_bufferSize, happended.size]
  · have hframes' : (p.appendIncomingBytes bytes).1.frames ≠ [] := by
      rw [happended.config]
      exact hframes
    simp only [FrameStreamParser.pushBytes, if_neg hbytes, if_neg hframes, if_neg hframes']
    rw [happended.size]
    obtain ⟨halike, hsame⟩ := happended.scanLoop hbatch {} (q.appendIncomingBytes bytes).1.buffer.size
    exact ⟨halike, ⟨hsame.frames, hsame.errors⟩, halike.size⟩

/-- An operation on the profiles: two alike parsers both take it or both refuse, and the bytes
and the buffer definition stay. -/
def ProfileOperation (operation : FrameStreamParser → Except String FrameStreamParser) : Prop :=
  ∀ p q : FrameStreamParser, p.Alike q →
    (∃ p' q', operation p = .ok p' ∧ operation q = .ok q' ∧ p'.Alike q' ∧ p'.buffer = p.buffer ∧
        q'.buffer = q.buffer ∧ p'.bufferDefinition = p.bufferDefinition) ∨
      ∃ error, operation p = .error error ∧ operation q = .error error

theorem profileOperation_set (frameName : String) (profile : StreamRuntimeProfile) :
    ProfileOperation (·.setRuntimeProfile frameName profile) := by
  intro p q h
  unfold FrameStreamParser.setRuntimeProfile
  simp only [h.config]
  cases q.frames.find? fun frame => frame.name == frameName with
  | none => exact .inr ⟨_, rfl, rfl⟩
  | some frame =>
    simp only
    split_ifs
    all_goals first
      | exact .inr ⟨_, rfl, rfl⟩
      | exact .inl ⟨_, _, rfl, rfl, ⟨rfl, h.contents⟩, rfl, rfl, rfl⟩

theorem profileOperation_clear (frameName : Option String) :
    ProfileOperation (·.clearRuntimeProfile frameName) := by
  intro p q h
  unfold FrameStreamParser.clearRuntimeProfile clearRuntimeProfiles
  cases frameName with
  | none =>
    simp only [h.config]
    exact .inl ⟨_, _, rfl, rfl, ⟨rfl, h.contents⟩, rfl, rfl, rfl⟩
  | some frameName =>
    simp only [h.config]
    split_ifs
    · exact .inl ⟨_, _, rfl, rfl, ⟨rfl, h.contents⟩, rfl, rfl, rfl⟩
    · exact .inr ⟨_, rfl, rfl⟩

/-- A ring that drops its oldest bytes does not grow. -/
theorem pushBytes_capacity_dropOldest (hdrop : p.bufferDefinition.dropOldest = true)
    (bytes : List UInt8) : (p.pushBytes bytes options).1.buffer.capacity = p.buffer.capacity := by
  rcases pushBytes_capacity p bytes options with h | h
  · exact h
  · rw [h, (ensureAppendCapacity_spec p bytes.length).2.2, if_pos hdrop]

end ProtoScope.Scripting.FrameStreamParser

namespace ProtoScope.App

open ProtoScope.Scripting

namespace HistoryRebuildTask

/-! ### Slices that fit -/

/-- The slice of this turn fits the schema's capacity beside the bytes that wait. -/
def SliceFits (history : List HistoryEvent) (task : HistoryRebuildTask) : Prop :=
  ∀ direction input, history[task.eventCursor]? = some (.bytes direction input) →
    (task.parser.parser direction).buffer.size + task.sliceAmount direction input
      ≤ (task.parser.parser direction).bufferDefinition.capacity

/-- Every slice of the run does. -/
def RunFits (transferFrameLimit : Nat) (history : List HistoryEvent) :
    List PumpChoice → HistoryRebuildTask → Prop
  | [], _ => True
  | choice :: choices, task =>
    (choice = .turn → task.mayTurn → task.SliceFits history) ∧
      ∀ task', task.step transferFrameLimit history choice = some task' →
        RunFits transferFrameLimit history choices task'

/-- The bytes the push of this turn overwrites. -/
def turnDropped (history : List HistoryEvent) (task : HistoryRebuildTask) : Nat :=
  match history[task.eventCursor]? with
  | some (.bytes direction input) =>
    ((task.parser.parser direction).pushBytes (task.slice direction input)).2.droppedBytes
  | _ => 0

/-- The start of a rebuild with parsers on rings of this size. -/
def beginOn (ring : Nat) (buffer : StreamBufferDefinition) (frames : List StreamFrameDefinition) :
    HistoryRebuildTask where
  parser :=
    ⟨{ FrameStreamParser.create buffer frames with buffer := .ofCapacity ring },
      { FrameStreamParser.create buffer frames with buffer := .ofCapacity ring }⟩

/-- Both parsers have this buffer definition and rings of this size. -/
structure OnRings (ring : Nat) (buffer : StreamBufferDefinition) (task : HistoryRebuildTask) :
    Prop where
  definition : ∀ direction, (task.parser.parser direction).bufferDefinition = buffer
  capacity : ∀ direction, (task.parser.parser direction).buffer.capacity = ring

/-- The same but for the rings. -/
structure Alike (s t : HistoryRebuildTask) : Prop where
  parser : ∀ direction, (s.parser.parser direction).Alike (t.parser.parser direction)
  eventCursor : s.eventCursor = t.eventCursor
  byteOffset : s.byteOffset = t.byteOffset
  rebuilt : s.rebuilt = t.rebuilt
  events : s.events = t.events
  bytes : s.bytes = t.bytes

theorem length_slice (task : HistoryRebuildTask) (direction : TransferDirection)
    (input : List UInt8) :
    (task.slice direction input).length = task.sliceAmount direction input := by
  unfold slice
  rw [List.length_take, List.length_drop]
  refine Nat.min_eq_left ?_
  unfold sliceAmount
  omega

variable {s t : HistoryRebuildTask} {ring : Nat} {buffer : StreamBufferDefinition}
  {transferFrameLimit : Nat} {history : List HistoryEvent}

theorem Alike.sliceAmount (h : s.Alike t) (direction : TransferDirection) (input : List UInt8) :
    s.sliceAmount direction input = t.sliceAmount direction input := by
  unfold HistoryRebuildTask.sliceAmount
  rw [h.byteOffset, h.bytes, (h.parser direction).config]

theorem Alike.slice (h : s.Alike t) (direction : TransferDirection) (input : List UInt8) :
    s.slice direction input = t.slice direction input := by
  unfold HistoryRebuildTask.slice
  rw [h.sliceAmount, h.byteOffset]

/-! ### Two runs side by side -/

theorem parser_setParser (state : TransferFrameParserState) (direction other : TransferDirection)
    (parser : FrameStreamParser) :
    (state.setParser direction parser).parser other
      = if other = direction then parser else state.parser other := by
  cases direction <;> cases other <;> rfl

/-- A task on rings of the schema's capacity, and the same task on larger ones. -/
structure Paired (ring : Nat) (buffer : StreamBufferDefinition) (s t : HistoryRebuildTask) :
    Prop where
  alike : s.Alike t
  left : s.OnRings buffer.capacity buffer
  right : t.OnRings ring buffer

theorem Paired.fits (h : Paired ring buffer s t) (hring : buffer.capacity ≤ ring)
    {direction : TransferDirection} {input : List UInt8}
    (hslice : (s.parser.parser direction).buffer.size + s.sliceAmount direction input
      ≤ (s.parser.parser direction).bufferDefinition.capacity) :
    (s.parser.parser direction).Fits (s.slice direction input) ∧
      (t.parser.parser direction).Fits (s.slice direction input) := by
  have hsize := (h.alike.parser direction).size
  rw [h.left.definition direction] at hslice
  unfold FrameStreamParser.Fits
  rw [length_slice, h.left.capacity, h.right.capacity]
  exact ⟨hslice, by omega⟩

/-- What a pair does with its cursors and counters, it does in both. -/
theorem Paired.withEvents (h : Paired ring buffer s t) (n : Nat) :
    Paired ring buffer { s with events := n } { t with events := n } :=
  ⟨⟨h.alike.parser, h.alike.eventCursor, h.alike.byteOffset, h.alike.rebuilt, rfl, h.alike.bytes⟩,
    ⟨h.left.definition, h.left.capacity⟩, ⟨h.right.definition, h.right.capacity⟩⟩

theorem Paired.advance (h : Paired ring buffer s t) : Paired ring buffer s.advance t.advance :=
  ⟨⟨h.alike.parser, congrArg (· + 1) h.alike.eventCursor, rfl, h.alike.rebuilt,
      congrArg (· + 1) h.alike.events, h.alike.bytes⟩,
    ⟨h.left.definition, h.left.capacity⟩, ⟨h.right.definition, h.right.capacity⟩⟩

theorem Paired.pushSlice (h : Paired ring buffer s t) (hdrop : buffer.dropOldest = true)
    (hring : buffer.capacity ≤ ring) {direction : TransferDirection} {input : List UInt8}
    (hslice : (s.parser.parser direction).buffer.size + s.sliceAmount direction input
      ≤ (s.parser.parser direction).bufferDefinition.capacity) :
    Paired ring buffer (s.pushSlice transferFrameLimit direction input)
      (t.pushSlice transferFrameLimit direction input) := by
  obtain ⟨hleft, hright⟩ := h.fits hring hslice
  obtain ⟨hparser, hresults, hsize⟩ := (h.alike.parser direction).pushBytes hleft hright
  have hrows : batchRows direction (s.slice direction input)
        ((s.parser.parser direction).pushBytes (s.slice direction input)).2
      = batchRows direction (s.slice direction input)
        ((t.parser.parser direction).pushBytes (s.slice direction input)).2 := by
    unfold batchRows
    rw [hresults.frames, hresults.errors, hsize]
  -- The parser of the other direction stays.
  have hfed : Paired ring buffer
      { s with
        parser := s.parser.setParser direction
          ((s.parser.parser direction).pushBytes (s.slice direction input)).1
        rebuilt := (batchRows direction (s.slice direction input)
          ((s.parser.parser direction).pushBytes (s.slice direction input)).2).foldl
            (keepRow transferFrameLimit) s.rebuilt
        byteOffset := s.byteOffset + s.sliceAmount direction input
        bytes := s.bytes + s.sliceAmount direction input }
      { t with
        parser := t.parser.setParser direction
          ((t.parser.parser direction).pushBytes (t.slice direction input)).1
        rebuilt := (batchRows direction (t.slice direction input)
          ((t.parser.parser direction).pushBytes (t.slice direction input)).2).foldl
            (keepRow transferFrameLimit) t.rebuilt
        byteOffset := t.byteOffset + t.sliceAmount direction input
        bytes := t.bytes + t.sliceAmount direction input } := by
    rw [← h.alike.slice, ← h.alike.sliceAmount]
    refine ⟨⟨fun other => ?_, h.alike.eventCursor, congrArg (· + _) h.alike.byteOffset, ?_,
      h.alike.events, congrArg (· + _) h.alike.bytes⟩, ⟨fun other => ?_, fun other => ?_⟩,
      ⟨fun other => ?_, fun other => ?_⟩⟩ <;> simp only [parser_setParser]
    · split_ifs
      · exact hparser
      · exact h.alike.parser other
    · rw [hrows, h.alike.rebuilt]
    · split_ifs
      · rw [FrameStreamParser.pushBytes_config]
        exact h.left.definition direction
      · exact h.left.definition other
    · split_ifs
      · rw [FrameStreamParser.pushBytes_capacity_dropOldest
          (by rw [h.left.definition]; exact hdrop), h.left.capacity]
      · exact h.left.capacity other
    · split_ifs
      · rw [FrameStreamParser.pushBytes_config]
        exact h.right.definition direction
      · exact h.right.definition other
    · split_ifs
      · rw [FrameStreamParser.pushBytes_capacity_dropOldest
          (by rw [h.right.definition]; exact hdrop), h.right.capacity]
      · exact h.right.capacity other
  unfold HistoryRebuildTask.pushSlice
  simp only
  rw [← h.alike.byteOffset, ← h.alike.sliceAmount, ← h.alike.events] at *
  split_ifs
  · exact hfed.withEvents _
  · exact hfed.advance

theorem Paired.withParsers (h : Paired ring buffer s t) {parser parser' : TransferFrameParserState}
    (halike : ∀ direction, (parser.parser direction).Alike (parser'.parser direction))
    (hleft : ∀ direction, (parser.parser direction).buffer = (s.parser.parser direction).buffer)
    (hright : ∀ direction, (parser'.parser direction).buffer = (t.parser.parser direction).buffer)
    (hdefinition : ∀ direction, (parser.parser direction).bufferDefinition
      = (s.parser.parser direction).bufferDefinition) :
    Paired ring buffer { s with parser := parser } { t with parser := parser' } := by
  have hdefined : ∀ direction, (parser.parser direction).bufferDefinition = buffer :=
    fun direction => (hdefinition direction).trans (h.left.definition direction)
  refine ⟨⟨halike, h.alike.eventCursor, h.alike.byteOffset, h.alike.rebuilt, h.alike.events,
    h.alike.bytes⟩, ⟨hdefined, fun direction => ?_⟩, ⟨fun direction => ?_, fun direction => ?_⟩⟩
  · show (parser.parser direction).buffer.capacity = _
    rw [hleft, h.left.capacity]
  · show (parser'.parser direction).bufferDefinition = _
    rw [← (halike direction).config]
    exact hdefined direction
  · show (parser'.parser direction).buffer.capacity = _
    rw [hright, h.right.capacity]

/-- An operation on both parsers of a state. -/
def onBoth (operation : FrameStreamParser → Except String FrameStreamParser)
    (state : TransferFrameParserState) : Option TransferFrameParserState :=
  match operation state.rx, operation state.tx with
  | .ok rx, .ok tx => some ⟨rx, tx⟩
  | _, _ => none

theorem Paired.onBoth (h : Paired ring buffer s t)
    {operation : FrameStreamParser → Except String FrameStreamParser}
    (hoperation : FrameStreamParser.ProfileOperation operation) :
    Option.Rel (Paired ring buffer)
      ((onBoth operation s.parser).map fun parser => { s with parser := parser }.advance)
      ((onBoth operation t.parser).map fun parser => { t with parser := parser }.advance) := by
  unfold HistoryRebuildTask.onBoth
  rcases hoperation _ _ (h.alike.parser .rx) with
    ⟨rx, rx', hrx, hrx', halikeRx, hleftRx, hrightRx, hdefRx⟩ | ⟨error, hrx, hrx'⟩
  · rcases hoperation _ _ (h.alike.parser .tx) with
      ⟨tx, tx', htx, htx', halikeTx, hleftTx, hrightTx, hdefTx⟩ | ⟨error, htx, htx'⟩
    · have hpair : Paired ring buffer { s with parser := ⟨rx, tx⟩ } { t with parser := ⟨rx', tx'⟩ } :=
        h.withParsers (by rintro (_ | _) <;> assumption) (by rintro (_ | _) <;> assumption)
          (by rintro (_ | _) <;> assumption) (by rintro (_ | _) <;> assumption)
      simp only [show operation s.parser.rx = .ok rx from hrx,
        show operation t.parser.rx = .ok rx' from hrx', show operation s.parser.tx = .ok tx from htx,
        show operation t.parser.tx = .ok tx' from htx']
      exact .some hpair.advance
    · simp only [show operation s.parser.rx = .ok rx from hrx,
        show operation t.parser.rx = .ok rx' from hrx',
        show operation s.parser.tx = .error error from htx,
        show operation t.parser.tx = .error error from htx']
      exact .none
  · simp only [show operation s.parser.rx = .error error from hrx,
      show operation t.parser.rx = .error error from hrx']
    exact .none

/-- **One step keeps the pair**, when a turn's slice fits. -/
theorem Paired.step (h : Paired ring buffer s t) (hdrop : buffer.dropOldest = true)
    (hring : buffer.capacity ≤ ring) (choice : PumpChoice)
    (hfits : choice = .turn → s.mayTurn → s.SliceFits history) :
    Option.Rel (Paired ring buffer) (s.step transferFrameLimit history choice)
      (t.step transferFrameLimit history choice) := by
  cases choice with
  | nextPump =>
    refine .some ⟨⟨h.alike.parser, h.alike.eventCursor, h.alike.byteOffset, h.alike.rebuilt, rfl,
      rfl⟩, ⟨h.left.definition, h.left.capacity⟩, ⟨h.right.definition, h.right.capacity⟩⟩
  | turn =>
    have hmay : t.mayTurn ↔ s.mayTurn := by
      unfold mayTurn
      rw [h.alike.events, h.alike.bytes]
    unfold HistoryRebuildTask.step
    by_cases hturn : s.mayTurn
    · rw [if_pos hturn, if_pos (hmay.mpr hturn)]
      have hslice := hfits rfl hturn
      unfold SliceFits at hslice
      have hcursor : history[t.eventCursor]? = history[s.eventCursor]? := by
        rw [h.alike.eventCursor]
      unfold HistoryRebuildTask.turn
      rw [hcursor]
      cases hevent : history[s.eventCursor]? with
      | none => exact .some h
      | some event =>
        cases event with
        | bytes direction input =>
          exact .some (h.pushSlice hdrop hring (hslice direction input hevent))
        | plotSetup => exact .some h.advance
        | profileSet frameName profile =>
          exact h.onBoth (FrameStreamParser.profileOperation_set frameName profile)
        | profileClear frameName =>
          exact h.onBoth (FrameStreamParser.profileOperation_clear frameName)
    · rw [if_neg hturn, if_neg fun hother => hturn (hmay.mp hother)]
      exact .some h

/-- **A run whose slices fit keeps the pair.** -/
theorem Paired.run (hdrop : buffer.dropOldest = true) (hring : buffer.capacity ≤ ring)
    {choices : List PumpChoice} (h : Paired ring buffer s t)
    (hfits : RunFits transferFrameLimit history choices s) :
    Option.Rel (Paired ring buffer) (run transferFrameLimit history choices s)
      (run transferFrameLimit history choices t) := by
  induction choices generalizing s t with
  | nil => exact .some h
  | cons choice choices ih =>
    obtain ⟨hhere, hlater⟩ := hfits
    have hstep : Option.Rel (Paired ring buffer) (s.step transferFrameLimit history choice)
        (t.step transferFrameLimit history choice) := h.step hdrop hring choice hhere
    unfold HistoryRebuildTask.run
    revert hstep hlater
    cases s.step transferFrameLimit history choice <;>
      cases t.step transferFrameLimit history choice <;> intro hlater hstep
    · exact .none
    · cases hstep
    · cases hstep
    · cases hstep with
      | some hpair => exact ih hpair (hlater _ rfl)

/-! ### The rebuild -/

theorem paired_begin (ring : Nat) (buffer : StreamBufferDefinition) (frames : List StreamFrameDefinition) :
    Paired ring buffer (.begin buffer frames) (beginOn ring buffer frames) :=
  ⟨⟨by rintro (_ | _) <;> exact ⟨rfl, rfl⟩, rfl, rfl, rfl, rfl, rfl⟩,
    ⟨by rintro (_ | _) <;> rfl,
      by rintro (_ | _) <;> exact ByteRingBuffer.capacity_ofCapacity _⟩,
    ⟨by rintro (_ | _) <;> rfl,
      by rintro (_ | _) <;> exact ByteRingBuffer.capacity_ofCapacity _⟩⟩

theorem runFits_append {before after : List PumpChoice}
    (h : RunFits transferFrameLimit history (before ++ after) s)
    (hrun : run transferFrameLimit history before s = some t) :
    RunFits transferFrameLimit history after t := by
  induction before generalizing s with
  | nil =>
    cases hrun
    exact h
  | cons choice before ih =>
    cases hstep : s.step transferFrameLimit history choice with
    | none => simp [HistoryRebuildTask.run, hstep] at hrun
    | some next => exact ih (h.2 next hstep) (by simpa [HistoryRebuildTask.run, hstep] using hrun)

theorem runFits_before {before after : List PumpChoice}
    (h : RunFits transferFrameLimit history (before ++ after) s) :
    RunFits transferFrameLimit history before s := by
  induction before generalizing s with
  | nil => trivial
  | cons choice before ih => exact ⟨h.1, fun next hstep => ih (h.2 next hstep)⟩

/-- A slice that fits overwrites nothing. -/
theorem Paired.turnDropped_eq_zero (h : Paired ring buffer s t) (hring : buffer.capacity ≤ ring)
    (hfits : s.SliceFits history) : s.turnDropped history = 0 := by
  unfold turnDropped
  cases hevent : history[s.eventCursor]? with
  | none => rfl
  | some event =>
    cases event with
    | bytes direction input =>
      have hpush := (h.fits hring (hfits direction input hevent)).1
      exact (FrameStreamParser.receivesWhole_of_fits hpush.overflowed).droppedBytes
    | _ => rfl

/-- **A rebuild whose slices fit loses nothing.**  When before every slice the bytes that wait
and the slice fit the schema's capacity together, no turn overwrites a byte, and the rows are
those of the same rebuild on rings of any larger size. -/
theorem rebuild_eq_unbounded (buffer : StreamBufferDefinition)
    (hdrop : buffer.dropOldest = true) (frames : List StreamFrameDefinition)
    (transferFrameLimit : Nat) (history : List HistoryEvent) (choices : List PumpChoice)
    (hfits : RunFits transferFrameLimit history choices (.begin buffer frames)) :
    (∀ before after task, choices = before ++ .turn :: after →
        run transferFrameLimit history before (.begin buffer frames) = some task →
        task.mayTurn → task.turnDropped history = 0) ∧
      ∀ ring, buffer.capacity ≤ ring →
        (run transferFrameLimit history choices (beginOn ring buffer frames)).map (·.rebuilt)
          = (run transferFrameLimit history choices (.begin buffer frames)).map (·.rebuilt) := by
  constructor
  · rintro before after task rfl hrun hmay
    have hpair := Paired.run hdrop (Nat.le_refl _) (paired_begin buffer.capacity buffer frames)
      (runFits_before hfits)
    have hhere := (runFits_append hfits hrun).1 rfl hmay
    rw [hrun] at hpair
    generalize run transferFrameLimit history before (beginOn _ buffer frames) = other at hpair
    cases hpair with
    | some hpair => exact hpair.turnDropped_eq_zero (Nat.le_refl _) hhere
  · intro ring hring
    have hpair := Paired.run hdrop hring (paired_begin ring buffer frames) hfits
    revert hpair
    cases run transferFrameLimit history choices (.begin buffer frames) <;>
      cases run transferFrameLimit history choices (beginOn ring buffer frames) <;> intro hpair
    · rfl
    · cases hpair
    · cases hpair
    · cases hpair with
      | some hpair => exact congrArg some hpair.alike.rebuilt.symm

/-- A ring for eight bytes and frames of seven. -/
def sevenBytes : StreamBufferDefinition := { capacity := 8, dropOldest := true }

def sevenFrame : StreamFrameDefinition where
  name := "seven"
  header := [0xAA]
  size := some 7

/-- One frame comes in two slices that fit. -/
theorem rebuild_eq_unbounded_seven :
    (run 10 [.bytes .rx [0xAA, 1, 2, 3, 4, 5, 6]] [.turn, .turn]
        (beginOn 64 sevenBytes [sevenFrame])).map (·.rebuilt)
      = (run 10 [.bytes .rx [0xAA, 1, 2, 3, 4, 5, 6]] [.turn, .turn]
        (.begin sevenBytes [sevenFrame])).map (·.rebuilt) := by
  refine (rebuild_eq_unbounded sevenBytes rfl [sevenFrame] 10
    [.bytes .rx [0xAA, 1, 2, 3, 4, 5, 6]] [.turn, .turn] ?_).2 64 (by decide)
  refine ⟨fun _ _ direction input hevent => ?_, fun task hstep => ?_⟩
  · cases hevent
    decide
  · cases hstep
    refine ⟨fun _ _ direction input hevent => ?_, fun task _ => trivial⟩
    cases hevent
    decide

/-- Three frames in one event: the third slice leaves five bytes, and the fourth overwrites the
header of the frame they begin. -/
theorem slices_overwrite :
    ¬ ∀ buffer : StreamBufferDefinition, buffer.dropOldest = true →
      ∀ frames : List StreamFrameDefinition,
        (∀ frame ∈ frames, ∃ size ≤ buffer.capacity, frame.size = some size) →
        ∀ transferFrameLimit history choices ring, buffer.capacity ≤ ring →
          (run transferFrameLimit history choices (beginOn ring buffer frames)).map (·.rebuilt)
            = (run transferFrameLimit history choices (.begin buffer frames)).map (·.rebuilt) := by
  intro h
  have hsize : ∀ frame ∈ [sevenFrame], ∃ size ≤ sevenBytes.capacity, frame.size = some size := by
    intro frame hframe
    rw [List.mem_singleton.mp hframe]
    exact ⟨7, by decide, rfl⟩
  have hrows := h sevenBytes rfl [sevenFrame] hsize 10
    [.bytes .rx [0xAA, 1, 2, 3, 4, 5, 6, 0xAA, 1, 2, 3, 4, 5, 6, 0xAA, 1, 2, 3, 4, 5, 6]]
    [.turn, .turn, .turn, .turn, .turn, .turn] 64 (by decide)
  -- Three frames on the one side, two on the other.
  have hframes := congrArg (Option.map fun rows => (rows.filterMap HistoryRow.frame?).length) hrows
  revert hframes
  decide

end HistoryRebuildTask

end ProtoScope.App
