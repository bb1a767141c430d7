/-
A stream of events is read back.

A record is read as its event, and the bytes after it are taken by their number, so what they
look like does not matter.  After them the next record begins.
-/
import ProtoScope.Proofs.Plot.EventRecords

namespace ProtoScope.Plot

open ProtoScope.Data (Text text ok_bind)
open ProtoScope.Library

/-! ### Fields of bytes and profiles -/

section Fields

variable {numbers : Numbers} (decoded : DecodedEvent)

theorem base_timestampMs (value : UInt64) :
    parseDecodedEventField numbers (text "timestamp_ms") (unsignedText value) decoded =
      .ok { decoded with event := { decoded.event with timestampMs := value } } :=
  base_handled (by decide) (handledOr_unsigned _ value _)

theorem base_sequence (value : UInt64) :
    parseDecodedEventField numbers (text "sequence") (unsignedText value) decoded =
      .ok { decoded with event := { decoded.event with sequence := value } } :=
  base_handled (by decide) (handledOr_unsigned _ value _)

theorem base_endpoint (value : Text) :
    parseDecodedEventField numbers (text "endpoint") (encodeStringHex value) decoded =
      .ok { decoded with event := { decoded.event with endpoint := value } } :=
  base_handled (by decide) (handledOr_hex _ value _)

theorem base_writeStatus (value : Text) :
    parseDecodedEventField numbers (text "write_status") (encodeStringHex value) decoded =
      .ok { decoded with event := { decoded.event with writeStatus := value } } :=
  base_handled (by decide) (handledOr_hex _ value _)

theorem base_size {size : ℕ} (hsmall : size < 18446744073709551616) :
    parseDecodedEventField numbers (text "size") (Decimal.render size) decoded =
      .ok { decoded with
        state := { decoded.state with rxSize := UInt64.ofNat size, rxSizeSeen := true } } := by
  apply base_handled (by decide)
  show handledOr _ ((parseUnsigned (Decimal.render size)).map _) = _
  rw [parseUnsigned_render hsmall]
  rfl

theorem base_frame (value : Text) :
    parseDecodedEventField numbers (text "frame") value decoded =
      .ok { decoded with
        event := { decoded.event with
          profile := { decoded.event.profile with frameName := value } } } :=
  base_handled (by decide) rfl

theorem base_length {value : UInt64} (hne : value ≠ 0) :
    parseDecodedEventField numbers (text "length") (unsignedText value) decoded =
      .ok { event := { decoded.event with
              profile := { decoded.event.profile with length := value } }
            state := { decoded.state with profileLengthSeen := true } } := by
  apply base_handled (by decide)
  show handledOr _ (((parseUnsigned (unsignedText value)).filter _).map _) = _
  have hkeep : (some value).filter (fun length => decide (length ≠ 0)) = some value := by
    simp [hne]
  rw [parseUnsigned_unsignedText, hkeep]
  rfl

theorem comma_not_mem_unsignedText (value : UInt64) : comma ∉ unsignedText value :=
  fun hmem => absurd (Decimal.isDigit_of_mem_render hmem) (by decide)

/-- The items of a channel map are read one by one. -/
theorem parseChannelMapItems_joined (channelMap : List UInt64) :
    parseChannelMapItems (joined comma (channelMap.map unsignedText)) = some channelMap := by
  have hne (value : UInt64) : unsignedText value ≠ [] := Decimal.render_ne_nil _
  induction channelMap with
  | nil => exact parseChannelMapItems.eq_def _
  | cons value values ih =>
    cases values with
    | nil =>
      have hcut := Lines.cut_of_not_mem (comma_not_mem_unsignedText value)
      show parseChannelMapItems (unsignedText value) = _
      rw [parseChannelMapItems, if_neg (hne value)]
      split
      · rename_i item hitem
        rw [hcut] at hitem
        cases hitem
        rw [parseUnsigned_unsignedText]
        rfl
      · rename_i item rest hitem
        rw [hcut] at hitem
        cases hitem
    | cons second others =>
      have hcut := Lines.cut_append (comma_not_mem_unsignedText value)
        (joined comma ((second :: others).map unsignedText))
      show parseChannelMapItems (unsignedText value ++
        comma :: joined comma ((second :: others).map unsignedText)) = _
      rw [parseChannelMapItems, if_neg fun hnil => hne value (List.append_eq_nil_iff.mp hnil).1]
      split
      · rename_i item hitem
        rw [hcut] at hitem
        cases hitem
      · rename_i item rest hitem
        rw [hcut] at hitem
        cases hitem
        rw [parseUnsigned_unsignedText, ih]
        rfl

theorem plain_serializeChannelMap (channelMap : List UInt64) :
    Plain (serializeChannelMap channelMap) := by
  refine plain_joined (by decide) fun item hitem => ?_
  obtain ⟨value, -, rfl⟩ := List.mem_map.mp hitem
  exact plain_render _

theorem base_channelMap (channelMap : List UInt64) :
    parseDecodedEventField numbers (text "channel_map") (serializeChannelMap channelMap) decoded =
      .ok { decoded with
        event := { decoded.event with
          profile := { decoded.event.profile with channelMap := channelMap } } } := by
  apply base_handled (by decide)
  show handledOr _ ((parseChannelMap (serializeChannelMap channelMap)).map _) = _
  unfold parseChannelMap
  rw [(plain_serializeChannelMap channelMap).trim_eq]
  unfold serializeChannelMap
  rw [parseChannelMapItems_joined]
  rfl

end Fields

/-! ### The records -/

/-- The name of a frame is read as it was written. -/
structure GoodFrame (name : Text) : Prop where
  named : name ≠ []
  trimmed : Lines.Trimmed name
  oneLine : lineFeed ∉ name

/-- What the record of an event needs to be read back. -/
def ReadableEvent (numbers : Numbers) (event : RawCaptureEvent) : Prop :=
  match event.type with
  | .rxBytes | .txBytes => event.bytes.length < 18446744073709551616
  | .profileSet => GoodFrame event.profile.frameName ∧ event.profile.length ≠ 0
  | .profileClear => GoodFrame event.profile.frameName
  | .plotSetup =>
    event.plotSetup.channels ≠ [] ∧ event.plotSetup.channels.length < 18446744073709551616 ∧
      SanitizedChannels numbers event.plotSetup.channels ∧ ReadableSetup numbers event.plotSetup

/-- What an event of this type carries in a file. -/
def storedEvent (event : RawCaptureEvent) : RawCaptureEvent :=
  match event.type with
  | .rxBytes | .txBytes =>
    { type := event.type, timestampMs := event.timestampMs, bytes := event.bytes,
      endpoint := event.endpoint, sequence := event.sequence, writeStatus := event.writeStatus }
  | .profileSet =>
    { type := .profileSet, timestampMs := event.timestampMs, sequence := event.sequence,
      profile := event.profile }
  | .profileClear =>
    { type := .profileClear, timestampMs := event.timestampMs, sequence := event.sequence,
      profile := { frameName := event.profile.frameName } }
  | .plotSetup => setupEvent event

/-- The bytes after the record of an event. -/
def payloadOf (event : RawCaptureEvent) : Text := if isBytesEvent event then event.bytes else []

variable {numbers : Numbers} {event : RawCaptureEvent} {events : List RawCaptureEvent}

theorem goodField_bytesFields {field : Text × Text} (h : field ∈ bytesFields event) :
    GoodField field := by
  simp only [bytesFields, List.mem_cons, List.not_mem_nil, or_false] at h
  obtain rfl | rfl | rfl | rfl | rfl := h
  all_goals refine GoodField.of_plain (goodKey_fieldNames _ (by simp [fieldNames])) ?_
  · exact plain_render _
  · exact plain_hex _
  · exact plain_render _
  · exact plain_hex _
  · exact plain_render _

theorem goodField_profileSetFields (hframe : GoodFrame event.profile.frameName)
    {field : Text × Text} (h : field ∈ profileSetFields event) : GoodField field := by
  simp only [profileSetFields, List.mem_cons, List.not_mem_nil, or_false] at h
  obtain rfl | rfl | rfl | rfl | rfl := h
  case inr.inr.inl =>
    exact ⟨goodKey_fieldNames _ (by simp [fieldNames]), hframe.trimmed, hframe.oneLine⟩
  all_goals refine GoodField.of_plain (goodKey_fieldNames _ (by simp [fieldNames])) ?_
  · exact plain_render _
  · exact plain_render _
  · exact plain_render _
  · exact plain_serializeChannelMap _

theorem recorded_of_fields {name : Text} {type : RawCaptureEventType} {fields : Fields}
    (hname : Plain name)
    (hdecoded : decodeEventType (Lines.trim (fieldText (text "event", name))) =
      .ok { type := type })
    (hfields : ∀ field ∈ fields, GoodField field) : Recorded name type fields :=
  ⟨.of_plain (goodKey_fieldNames "event" (by simp [fieldNames])) hname, hdecoded, hfields⟩

theorem applyFields_bytesFields (type : RawCaptureEventType)
    (hsmall : event.bytes.length < 18446744073709551616) :
    applyFields numbers (bytesFields event) { event := { type := type } } = .ok
      { event :=
          { type := type, timestampMs := event.timestampMs, endpoint := event.endpoint,
            sequence := event.sequence, writeStatus := event.writeStatus }
        state := { rxSize := UInt64.ofNat event.bytes.length, rxSizeSeen := true } } := by
  unfold applyFields bytesFields
  simp only [List.foldlM_cons, List.foldlM_nil]
  rw [base_timestampMs, ok_bind, base_endpoint, ok_bind, base_sequence, ok_bind, base_writeStatus,
    ok_bind, base_size _ hsmall, ok_bind]
  rfl

theorem applyFields_profileSetFields (hne : event.profile.length ≠ 0) :
    applyFields numbers (profileSetFields event) { event := { type := .profileSet } } = .ok
      { event :=
          { type := .profileSet, timestampMs := event.timestampMs, sequence := event.sequence,
            profile := event.profile }
        state := { profileLengthSeen := true } } := by
  unfold applyFields profileSetFields
  simp only [List.foldlM_cons, List.foldlM_nil]
  rw [base_sequence, ok_bind, base_timestampMs, ok_bind, base_frame, ok_bind, base_length _ hne,
    ok_bind, base_channelMap, ok_bind]
  rfl

theorem applyFields_profileClearFields :
    applyFields numbers (profileClearFields event) { event := { type := .profileClear } } = .ok
      { event :=
          { type := .profileClear, timestampMs := event.timestampMs, sequence := event.sequence,
            profile := { frameName := event.profile.frameName } } } := by
  unfold applyFields profileClearFields
  simp only [List.foldlM_cons, List.foldlM_nil]
  rw [base_sequence, ok_bind, base_timestampMs, ok_bind, base_frame, ok_bind]
  rfl

/-- The declared number of bytes is taken, whatever they are. -/
theorem finalizeDecodedEvent_bytes {decoded : DecodedEvent} {bytes : Text}
    (htype : isBytesEvent decoded.event = true) (hseen : decoded.state.rxSizeSeen = true)
    (hsize : decoded.state.rxSize.toNat = bytes.length) (rest : Text) :
    finalizeDecodedEvent (some (bytes ++ rest)) decoded =
      .ok ({ decoded.event with bytes := bytes }, some rest) := by
  unfold finalizeDecodedEvent
  rw [if_pos htype, if_neg (by rw [hseen]; exact Bool.noConfusion)]
  dsimp only
  rw [hsize, if_neg (by rw [List.length_append]; omega), List.take_left, List.drop_left]

/-- **An event, followed by anything, is read as what was stored of it.** -/
theorem decodeEventStream_event (h : ReadableEvent numbers event) (rest : Text) :
    decodeEventStream numbers (encodeEventRecord numbers event ++ (payloadOf event ++ rest)) =
      decodeEventStream numbers rest >>= fun events => .ok (storedEvent event :: events) := by
  unfold ReadableEvent at h
  unfold encodeEventRecord payloadOf storedEvent isBytesEvent
  split at h
  · rename_i htype
    rw [htype]
    exact (recorded_of_fields (plain_of_all (by rfl)) (by rfl) fun _ => goodField_bytesFields)
      |>.decodeEventStream_eq (applyFields_bytesFields .rxBytes h)
        (finalizeDecodedEvent_bytes rfl rfl (UInt64.toNat_ofNat_of_lt' h) rest)
  · rename_i htype
    rw [htype]
    exact (recorded_of_fields (plain_of_all (by rfl)) (by rfl) fun _ => goodField_bytesFields)
      |>.decodeEventStream_eq (applyFields_bytesFields .txBytes h)
        (finalizeDecodedEvent_bytes rfl rfl (UInt64.toNat_ofNat_of_lt' h) rest)
  · rename_i htype
    rw [htype]
    refine (recorded_of_fields (plain_of_all (by rfl)) (by rfl)
      fun _ => goodField_profileSetFields h.1).decodeEventStream_eq
        (applyFields_profileSetFields h.2) ?_
    simp [finalizeDecodedEvent, finalizeOther, isBytesEvent, h.1.named]
  · rename_i htype
    rw [htype]
    -- the fields are the first three of a record that sets a profile
    have hfields : ∀ field ∈ (profileSetFields event).take 3, GoodField field :=
      fun _ hfield => goodField_profileSetFields h (List.mem_of_mem_take hfield)
    refine (recorded_of_fields (plain_of_all (by rfl)) (by rfl) hfields).decodeEventStream_eq
      applyFields_profileClearFields ?_
    simp [finalizeDecodedEvent, finalizeOther, isBytesEvent, h.named]
  · rename_i htype
    rw [htype]
    exact decodeEventStream_setup h.1 h.2.1 h.2.2.1.spec h.2.2.2 rest

theorem appendEncodedEventStream_eq (events : List RawCaptureEvent) (bytes : Text) :
    appendEncodedEventStream numbers events bytes =
      bytes ++ events.flatMap fun event => encodeEventRecord numbers event ++ payloadOf event := by
  induction events generalizing bytes with
  | nil => exact (List.append_nil _).symm
  | cons event events ih =>
    rw [appendEncodedEventStream, ih, List.flatMap_cons]
    simp only [List.append_assoc]
    rfl

/-- **The events of a stream are read back, and then what follows the stream.** -/
theorem decodeEventStream_appendEncoded (h : ∀ event ∈ events, ReadableEvent numbers event)
    (rest : Text) :
    decodeEventStream numbers (appendEncodedEventStream numbers events [] ++ rest) =
      decodeEventStream numbers rest >>= fun more => .ok (events.map storedEvent ++ more) := by
  rw [appendEncodedEventStream_eq, List.nil_append]
  induction events with
  | nil => exact (bind_pure _).symm
  | cons event events ih =>
    rw [List.flatMap_cons, List.append_assoc, List.append_assoc,
      decodeEventStream_event (h event List.mem_cons_self),
      ih fun other hother => h other (List.mem_cons_of_mem _ hother), bind_assoc]
    rfl

/-- **A stream of events is read as what was stored of them**, whatever bytes they carry, and
written again it is the same stream. -/
theorem event_stream_round_trip (h : ∀ event ∈ events, ReadableEvent numbers event) :
    decodeEventStream numbers (appendEncodedEventStream numbers events []) =
        .ok (events.map storedEvent) ∧
      appendEncodedEventStream numbers (events.map storedEvent) [] =
        appendEncodedEventStream numbers events [] := by
  constructor
  · have hstream := decodeEventStream_appendEncoded h []
    rwa [decodeEventStream_nil, ok_bind, List.append_nil, List.append_nil] at hstream
  · rw [appendEncodedEventStream_eq, appendEncodedEventStream_eq, List.flatMap_map]
    refine congrArg _ (List.flatMap_congr fun event _ => congrArg₂ _ ?_ ?_)
    · unfold encodeEventRecord storedEvent
      cases htype : event.type <;> rfl
    · unfold payloadOf isBytesEvent storedEvent
      cases htype : event.type <;> simp [setupEvent]

/-- Bytes that look like a record, and a setup after a profile. -/
theorem sampled_stream_round_trip :
    let events : List RawCaptureEvent := [
      { type := .rxBytes, bytes := text "event: tx_bytes" ++ [10, 10] },
      { type := .profileSet, profile := { frameName := text "F", length := 4, channelMap := [3] } },
      { type := .txBytes }, twoChannels]
    decodeEventStream sampleNumbers (appendEncodedEventStream sampleNumbers events []) =
        .ok (events.map storedEvent) ∧
      appendEncodedEventStream sampleNumbers (events.map storedEvent) [] =
        appendEncodedEventStream sampleNumbers events [] := by
  refine event_stream_round_trip fun event h => ?_
  simp only [List.mem_cons, List.not_mem_nil, or_false] at h
  obtain rfl | rfl | rfl | rfl := h
  · show (text "event: tx_bytes" ++ [10, 10]).length < _
    decide +kernel
  · exact ⟨⟨List.cons_ne_nil _ _, Lines.trimmed_of_forall (plain_of_all (by rfl)), by decide⟩,
      by decide⟩
  · exact Nat.succ_pos _
  · exact ⟨List.cons_ne_nil _ _, by decide, by decide +kernel, by decide +kernel⟩

end ProtoScope.Plot
