/-
The event records of a raw capture file: lines of fields, an empty line and, for the bytes
of a transfer, as many bytes as the record has declared.

Reading goes through a view of the events with a cursor.  A view that ends without a line
feed leaves the cursor past its end, which is `none` here; a record that then takes bytes
reads outside the view.
-/
import ProtoScope.Plot.ChannelSpec

namespace ProtoScope.Plot

open ProtoScope.Data (Text text)
open ProtoScope.Library

def lineFeed : UInt8 := 10

def colon : UInt8 := 58

def comma : UInt8 := 44

def dot : UInt8 := 46

inductive RawCaptureEventType where
  | rxBytes
  | profileSet
  | profileClear
  | plotSetup
  | txBytes
deriving DecidableEq, Repr

structure RawCaptureProfileEventData where
  frameName : Text := []
  length : UInt64 := 0
  channelMap : List UInt64 := []
deriving DecidableEq

structure RawCapturePlotSetupEventData where
  source : Text := []
  channels : List ChannelSpec := []
  view : ViewConfig := {}
  resetHistory : Bool := false
deriving DecidableEq

structure RawCaptureEvent where
  type : RawCaptureEventType := .rxBytes
  timestampMs : UInt64 := 0
  bytes : List UInt8 := []
  profile : RawCaptureProfileEventData := {}
  plotSetup : RawCapturePlotSetupEventData := {}
  endpoint : Text := []
  sequence : UInt64 := 0
  writeStatus : Text := []
deriving DecidableEq

def isBytesEvent (event : RawCaptureEvent) : Bool :=
  event.type = .rxBytes ∨ event.type = .txBytes

/-! ### Writing -/

/-- The items with the separator between them. -/
def joined (separator : UInt8) : List Text → Text
  | [] => []
  | [item] => item
  | item :: items => item ++ separator :: joined separator items

def serializeChannelMap (channelMap : List UInt64) : Text :=
  joined comma (channelMap.map unsignedText)

def serializeColor (numbers : Numbers) (color : Option Color) : Text :=
  match color with
  | none => text "none"
  | some color =>
    joined comma ([color.red, color.green, color.blue, color.alpha].map fun component =>
      numbers.print 9 (numbers.toDouble component))

def serializeLineWidth (numbers : Numbers) (lineWidth : Option Float32) : Text :=
  match lineWidth with
  | none => text "none"
  | some _ => numbers.print 9 (numbers.toDouble (resolveChannelLineWidth numbers lineWidth))

/-- The value of the enumerator. -/
def displayFormulaText : WaveDisplayFormula → Text
  | .offsetThenScale => text "0"
  | .scaleThenOffset => text "1"

def channelKey (index : ℕ) (field : Text) : Text :=
  text "channel." ++ Decimal.render index ++ dot :: field

/-- Names of fields and their values. -/
abbrev Fields : Type := List (Text × Text)

def channelFields (numbers : Numbers) (index : ℕ) (channel : ChannelSpec) : Fields :=
  [(channelKey index (text "label"), encodeStringHex channel.label),
    (channelKey index (text "unit"), encodeStringHex channel.unit),
    (channelKey index (text "ratio"), numbers.print 17 channel.ratio),
    (channelKey index (text "scale"), numbers.print 17 channel.scale),
    (channelKey index (text "offset"), numbers.print 17 channel.offset),
    (channelKey index (text "color"), serializeColor numbers channel.color),
    (channelKey index (text "line_width"), serializeLineWidth numbers channel.lineWidth),
    (channelKey index (text "bit_display.enabled"), boolText channel.bitDisplay.enabled),
    (channelKey index (text "bit_display.first_bit"), unsignedText channel.bitDisplay.firstBit),
    (channelKey index (text "bit_display.bit_count"), unsignedText channel.bitDisplay.bitCount),
    (channelKey index (text "bit_display.y_offset"), numbers.print 17 channel.bitDisplay.yOffset),
    (channelKey index (text "bit_display.hover_readout"),
      boolText channel.bitDisplay.hoverReadout)]

/-- The fields of the channels from an index on. -/
def channelsFields (numbers : Numbers) : ℕ → List ChannelSpec → Fields
  | _, [] => []
  | index, channel :: channels =>
    channelFields numbers index channel ++ channelsFields numbers (index + 1) channels

def viewFields (numbers : Numbers) (view : ViewConfig) : Fields :=
  [(text "view.time_scale", numbers.print 17 view.timeScale),
    (text "view.time_unit", encodeStringHex view.timeUnit),
    (text "view.vertical_min", numbers.print 17 view.verticalMin),
    (text "view.vertical_max", numbers.print 17 view.verticalMax),
    (text "view.vertical_unit", encodeStringHex view.verticalUnit),
    (text "view.history_limit", unsignedText view.historyLimit),
    (text "view.display_formula", displayFormulaText view.displayFormula)]

/-- The fields of a `plot_setup` record after its first line. -/
def plotSetupFields (numbers : Numbers) (event : RawCaptureEvent) : Fields :=
  [(text "sequence", unsignedText event.sequence),
    (text "timestamp_ms", unsignedText event.timestampMs),
    (text "source", encodeStringHex event.plotSetup.source),
    (text "reset_history", boolText event.plotSetup.resetHistory),
    (text "channel_count", Decimal.render event.plotSetup.channels.length)] ++
  channelsFields numbers 0 event.plotSetup.channels ++
  viewFields numbers event.plotSetup.view

def bytesFields (event : RawCaptureEvent) : Fields :=
  [(text "timestamp_ms", unsignedText event.timestampMs),
    (text "endpoint", encodeStringHex event.endpoint),
    (text "sequence", unsignedText event.sequence),
    (text "write_status", encodeStringHex event.writeStatus),
    (text "size", Decimal.render event.bytes.length)]

def profileSetFields (event : RawCaptureEvent) : Fields :=
  [(text "sequence", unsignedText event.sequence),
    (text "timestamp_ms", unsignedText event.timestampMs),
    (text "frame", event.profile.frameName),
    (text "length", unsignedText event.profile.length),
    (text "channel_map", serializeChannelMap event.profile.channelMap)]

def profileClearFields (event : RawCaptureEvent) : Fields :=
  [(text "sequence", unsignedText event.sequence),
    (text "timestamp_ms", unsignedText event.timestampMs),
    (text "frame", event.profile.frameName)]

def fieldLine (field : Text × Text) : Text :=
  field.1 ++ colon :: 32 :: field.2 ++ [lineFeed]

/-- The lines of some fields and the empty line after them. -/
def recordText (fields : Fields) : Text := fields.flatMap fieldLine ++ [lineFeed]

def encodePlotSetupRecord (numbers : Numbers) (event : RawCaptureEvent) : Text :=
  recordText ((text "event", text "plot_setup") :: plotSetupFields numbers event)

def encodeEventRecord (numbers : Numbers) (event : RawCaptureEvent) : Text :=
  match event.type with
  | .rxBytes => recordText ((text "event", text "rx_bytes") :: bytesFields event)
  | .txBytes => recordText ((text "event", text "tx_bytes") :: bytesFields event)
  | .profileSet => recordText ((text "event", text "profile_set") :: profileSetFields event)
  | .profileClear => recordText ((text "event", text "profile_clear") :: profileClearFields event)
  | .plotSetup => encodePlotSetupRecord numbers event

/-- The records of some events, each with the bytes of its transfer, after those already there. -/
def appendEncodedEventStream (numbers : Numbers) : List RawCaptureEvent → Text → Text
  | [], bytes => bytes
  | event :: events, bytes =>
    appendEncodedEventStream numbers events
      (bytes ++ encodeEventRecord numbers event ++ if isBytesEvent event then event.bytes else [])

/-! ### Reading fields -/

/-- The items between commas; nothing after the last comma is no item. -/
def parseChannelMapItems (items : Text) : Option (List UInt64) :=
  if items = [] then some []
  else
    match _h : Lines.cut comma items with
    | (item, none) => (parseUnsigned item).map fun value => [value]
    | (item, some rest) => do
      let value ← parseUnsigned item
      let values ← parseChannelMapItems rest
      return value :: values
termination_by items.length
decreasing_by exact Lines.length_of_cut _h

def parseChannelMap (value : Text) : Option (List UInt64) :=
  parseChannelMapItems (Lines.trim value)

def parseComponent (numbers : Numbers) (value : Text) : Option Float32 :=
  (parseFinite numbers value).map numbers.toFloat

/-- The four components; the last takes all that is left. -/
def parseComponents (numbers : Numbers) (value : Text) : Option Color := do
  let (red, rest) := Lines.cut comma value
  let red ← parseComponent numbers red
  let (green, rest) := Lines.cut comma (← rest)
  let green ← parseComponent numbers green
  let (blue, rest) := Lines.cut comma (← rest)
  let blue ← parseComponent numbers blue
  let alpha ← parseComponent numbers (← rest)
  return { red, green, blue, alpha }

def parseColor (numbers : Numbers) (value : Text) : Option (Option Color) :=
  if Lines.trim value = text "none" ∨ Lines.trim value = [] then some none
  else (parseComponents numbers (Lines.trim value)).map some

def parseLineWidth (numbers : Numbers) (value : Text) : Option (Option Float32) :=
  if Lines.trim value = text "none" ∨ Lines.trim value = [] then some none
  else
    (parseFinite numbers (Lines.trim value)).map fun parsed =>
      some (sanitizeChannelLineWidth numbers parsed)

structure DecodedEventState where
  rxSize : UInt64 := 0
  rxSizeSeen : Bool := false
  profileLengthSeen : Bool := false
  plotChannelCountSeen : Bool := false
  plotChannelCount : UInt64 := 0

/-- A record as far as it has been read. -/
structure DecodedEvent where
  event : RawCaptureEvent
  state : DecodedEventState := {}

inductive EventFieldParseResult where
  | handled (decoded : DecodedEvent)
  | ignored
  | failed (error : String)

/-- A field that is there and must parse. -/
def handledOr (error : String) (decoded : Option DecodedEvent) : EventFieldParseResult :=
  match decoded with
  | some decoded => .handled decoded
  | none => .failed error

def decodeEventType (firstLine : Text) : Except String RawCaptureEvent :=
  if firstLine = text "event: rx_bytes" then .ok { type := .rxBytes }
  else if firstLine = text "event: tx_bytes" then .ok { type := .txBytes }
  else if firstLine = text "event: profile_set" then .ok { type := .profileSet }
  else if firstLine = text "event: profile_clear" then .ok { type := .profileClear }
  else if firstLine = text "event: plot_setup" then .ok { type := .plotSetup }
  else .error "psraw 事件记录缺少 event 类型"

def parseBaseEventField (key value : Text) (decoded : DecodedEvent) : EventFieldParseResult :=
  let event := decoded.event
  let state := decoded.state
  if key = text "endpoint" then
    handledOr "psraw endpoint 格式错误" <| (decodeStringHex value).map fun endpoint =>
      { decoded with event := { event with endpoint } }
  else if key = text "write_status" then
    handledOr "psraw write_status 格式错误" <| (decodeStringHex value).map fun writeStatus =>
      { decoded with event := { event with writeStatus } }
  else if key = text "sequence" then
    handledOr "psraw sequence 格式错误" <| (parseUnsigned value).map fun sequence =>
      { decoded with event := { event with sequence } }
  else if key = text "timestamp_ms" then
    handledOr "psraw 事件时间戳格式错误" <| (parseUnsigned value).map fun timestampMs =>
      { decoded with event := { event with timestampMs } }
  else if key = text "size" then
    handledOr "psraw rx_bytes size 格式错误" <| (parseUnsigned value).map fun rxSize =>
      { decoded with state := { state with rxSize, rxSizeSeen := true } }
  else if key = text "frame" then
    .handled { decoded with
      event := { event with profile := { event.profile with frameName := value } } }
  else if key = text "length" then
    handledOr "psraw profile_set length 格式错误" <|
      ((parseUnsigned value).filter (· ≠ 0)).map fun length =>
        { event := { event with profile := { event.profile with length } }
          state := { state with profileLengthSeen := true } }
  else if key = text "channel_map" then
    handledOr "psraw profile_set channel_map 格式错误" <| (parseChannelMap value).map fun channelMap =>
      { decoded with event := { event with profile := { event.profile with channelMap } } }
  else .ignored

/-- The check after either of the two bit fields has been set. -/
def checkBitRange (channel : ChannelSpec) : Except String ChannelSpec :=
  if kMaxBitDisplayCount < channel.bitDisplay.firstBit + channel.bitDisplay.bitCount then
    .error "psraw plot_setup channel bit_display 范围超过 64 bit"
  else .ok channel

/-- A value that must parse. -/
def parsedOr {α : Type} (error : String) (parsed : Option α) : Except String α :=
  match parsed with
  | some value => .ok value
  | none => .error error

/-- The field of one channel; a field it does not know changes nothing. -/
def parseChannelSpecField (numbers : Numbers) (field value : Text) (channel : ChannelSpec) :
    Except String ChannelSpec :=
  let bitDisplay := channel.bitDisplay
  if field = text "label" then do
    let label ← parsedOr "psraw plot_setup channel label hex 格式错误" (decodeStringHex value)
    return { channel with label }
  else if field = text "unit" then do
    let unit ← parsedOr "psraw plot_setup channel unit hex 格式错误" (decodeStringHex value)
    return { channel with unit }
  else if field = text "ratio" then do
    let ratio ← parsedOr "psraw plot_setup channel ratio 格式错误" (parseFinite numbers value)
    return { channel with ratio }
  else if field = text "scale" then do
    let scale ← parsedOr "psraw plot_setup channel scale 格式错误" (parseFinite numbers value)
    return { channel with scale }
  else if field = text "offset" then do
    let offset ← parsedOr "psraw plot_setup channel offset 格式错误" (parseFinite numbers value)
    return { channel with offset }
  else if field = text "color" then do
    let color ← parsedOr "psraw plot_setup channel color 格式错误" (parseColor numbers value)
    return { channel with color }
  else if field = text "line_width" then do
    let lineWidth ←
      parsedOr "psraw plot_setup channel line_width 格式错误" (parseLineWidth numbers value)
    return { channel with lineWidth }
  else if field = text "bit_display.enabled" then do
    let enabled ←
      parsedOr "psraw plot_setup channel bit_display.enabled 格式错误" (parseBool value)
    return { channel with bitDisplay := { bitDisplay with enabled } }
  else if field = text "bit_display.hover_readout" then do
    let hoverReadout ←
      parsedOr "psraw plot_setup channel bit_display.hover_readout 格式错误" (parseBool value)
    return { channel with bitDisplay := { bitDisplay with hoverReadout } }
  else if field = text "bit_display.first_bit" then do
    let firstBit ← parsedOr "psraw plot_setup channel bit_display.first_bit 格式错误" <|
      (parseUnsigned value).filter (· < kMaxBitDisplayCount)
    checkBitRange { channel with bitDisplay := { bitDisplay with firstBit } }
  else if field = text "bit_display.bit_count" then do
    let bitCount ← parsedOr "psraw plot_setup channel bit_display.bit_count 格式错误" <|
      (parseUnsigned value).filter fun count => count ≠ 0 ∧ count ≤ kMaxBitDisplayCount
    checkBitRange { channel with bitDisplay := { bitDisplay with bitCount } }
  else if field = text "bit_display.y_offset" then do
    let yOffset ← parsedOr "psraw plot_setup channel bit_display.y_offset 格式错误"
      (parseFinite numbers value)
    return { channel with bitDisplay := { bitDisplay with yOffset } }
  else .ok channel

def kChannelPrefix : Text := text "channel."

/-- The channel of an index; the list has as many as `channel_count` says. -/
def updateChannel (index : UInt64) (update : ChannelSpec → Except String ChannelSpec)
    (decoded : DecodedEvent) : EventFieldParseResult :=
  let setup := decoded.event.plotSetup
  match update (setup.channels.getD index.toNat default) with
  | .ok channel =>
    .handled { decoded with
      event := { decoded.event with
        plotSetup := { setup with channels := setup.channels.set index.toNat channel } } }
  | .error error => .failed error

def parsePlotSetupChannelField (numbers : Numbers) (key value : Text) (decoded : DecodedEvent) :
    EventFieldParseResult :=
  if kChannelPrefix.isPrefixOf key = false then .ignored
  else if decoded.state.plotChannelCountSeen = false then
    .failed "psraw plot_setup channel 字段早于 channel_count"
  else
    match Lines.cut dot (key.drop kChannelPrefix.length) with
    | (_, none) => .failed "psraw plot_setup channel 字段格式错误"
    | (index, some field) =>
      match (parseUnsigned index).filter (· < decoded.state.plotChannelCount) with
      | none => .failed "psraw plot_setup channel 索引格式错误"
      | some index => updateChannel index (parseChannelSpecField numbers field value) decoded

def parsePlotSetupViewField (numbers : Numbers) (key value : Text) (decoded : DecodedEvent) :
    EventFieldParseResult :=
  let withView (view : ViewConfig) : DecodedEvent :=
    { decoded with
      event := { decoded.event with plotSetup := { decoded.event.plotSetup with view } } }
  let view := decoded.event.plotSetup.view
  if key = text "view.time_scale" then
    handledOr "psraw plot_setup view.time_scale 格式错误" <| (parseFinite numbers value).map
      fun timeScale => withView { view with timeScale }
  else if key = text "view.time_unit" then
    handledOr "psraw plot_setup view.time_unit hex 格式错误" <| (decodeStringHex value).map
      fun timeUnit => withView { view with timeUnit }
  else if key = text "view.vertical_min" then
    handledOr "psraw plot_setup view.vertical_min 格式错误" <| (parseFinite numbers value).map
      fun verticalMin => withView { view with verticalMin }
  else if key = text "view.vertical_max" then
    handledOr "psraw plot_setup view.vertical_max 格式错误" <| (parseFinite numbers value).map
      fun verticalMax => withView { view with verticalMax }
  else if key = text "view.vertical_unit" then
    handledOr "psraw plot_setup view.vertical_unit hex 格式错误" <| (decodeStringHex value).map
      fun verticalUnit => withView { view with verticalUnit }
  else if key = text "view.history_limit" then
    handledOr "psraw plot_setup view.history_limit 格式错误" <| (parseUnsigned value).map
      fun historyLimit => withView { view with historyLimit }
  else .ignored

/-- `std::vector::resize` -/
def resizedChannels (count : ℕ) (channels : List ChannelSpec) : List ChannelSpec :=
  channels.take count ++ List.replicate (count - channels.length) default

def parsePlotSetupField (numbers : Numbers) (key value : Text) (decoded : DecodedEvent) :
    EventFieldParseResult :=
  let event := decoded.event
  let setup := event.plotSetup
  if event.type ≠ .plotSetup then .ignored
  else if key = text "source" then
    handledOr "psraw plot_setup source hex 格式错误" <| (decodeStringHex value).map fun source =>
      { decoded with event := { event with plotSetup := { setup with source } } }
  else if key = text "reset_history" then
    handledOr "psraw plot_setup reset_history 格式错误" <| (parseBool value).map fun resetHistory =>
      { decoded with event := { event with plotSetup := { setup with resetHistory } } }
  else if key = text "channel_count" then
    handledOr "psraw plot_setup channel_count 格式错误" <|
      ((parseUnsigned value).filter (· ≠ 0)).map fun count =>
        { event := { event with
            plotSetup := { setup with channels := resizedChannels count.toNat setup.channels } }
          state := { decoded.state with plotChannelCountSeen := true, plotChannelCount := count } }
  else
    match parsePlotSetupChannelField numbers key value decoded with
    | .ignored => parsePlotSetupViewField numbers key value decoded
    | result => result

def parseDecodedEventField (numbers : Numbers) (key value : Text) (decoded : DecodedEvent) :
    Except String DecodedEvent :=
  if key = text "view.display_formula" then
    let withFormula (displayFormula : WaveDisplayFormula) : DecodedEvent :=
      { decoded with
        event := { decoded.event with
          plotSetup := { decoded.event.plotSetup with
            view := { decoded.event.plotSetup.view with displayFormula } } } }
    if value = text "0" then .ok (withFormula .offsetThenScale)
    else if value = text "1" then .ok (withFormula .scaleThenOffset)
    else .error "psraw display_formula 格式错误"
  else
    match parseBaseEventField key value decoded with
    | .failed error => .error error
    | .handled decoded => .ok decoded
    | .ignored =>
      match parsePlotSetupField numbers key value decoded with
      | .failed error => .error error
      | .handled decoded => .ok decoded
      | .ignored => .ok decoded

/-- The key and the value of a line that is not empty. -/
def parseFieldLine (numbers : Numbers) (line : Text) (decoded : DecodedEvent) :
    Except String DecodedEvent :=
  match Lines.cut colon line with
  | (_, none) => .error "psraw 事件字段格式错误"
  | (key, some value) =>
    parseDecodedEventField numbers (Lines.trim key) (Lines.trim value) decoded

/-! ### Reading records -/

inductive Fault where
  | refused (error : String)
  /-- Bytes outside the view are read. -/
  | outOfRange

/-- The fields of a record up to its empty line, or to the end of the view. -/
def readFields (numbers : Numbers) (rest : Text) (decoded : DecodedEvent) :
    Except String (DecodedEvent × Option Text) :=
  if rest = [] then .ok (decoded, some [])
  else
    match _h : Lines.cut lineFeed rest with
    | (line, none) =>
      if Lines.trim line = [] then .ok (decoded, none)
      else do
        let decoded ← parseFieldLine numbers (Lines.trim line) decoded
        return (decoded, none)
    | (line, some after) =>
      if Lines.trim line = [] then .ok (decoded, some after)
      else do
        let decoded ← parseFieldLine numbers (Lines.trim line) decoded
        readFields numbers after decoded
termination_by rest.length
decreasing_by exact Lines.length_of_cut _h

/-- The checks on an event that takes no bytes. -/
def finalizeOther (decoded : DecodedEvent) : Except String RawCaptureEvent :=
  let event := decoded.event
  if event.type = .plotSetup then
    if decoded.state.plotChannelCountSeen then .ok event
    else .error "psraw plot_setup 事件缺少 channel_count"
  else if event.profile.frameName = [] then .error "psraw profile 事件缺少 frame"
  else if event.type = .profileSet ∧ decoded.state.profileLengthSeen = false then
    .error "psraw profile_set 事件缺少 length"
  else .ok event

def finalizeDecodedEvent (rest : Option Text) (decoded : DecodedEvent) :
    Except Fault (RawCaptureEvent × Option Text) :=
  if isBytesEvent decoded.event then
    if decoded.state.rxSizeSeen = false then .error (.refused "psraw rx_bytes 事件缺少 size")
    else
      match rest with
      | none => .error .outOfRange
      | some rest =>
        if rest.length < decoded.state.rxSize.toNat then
          .error (.refused "psraw rx_bytes 事件 payload 超出文件范围")
        else
          .ok ({ decoded.event with bytes := rest.take decoded.state.rxSize.toNat },
            some (rest.drop decoded.state.rxSize.toNat))
  else
    match finalizeOther decoded with
    | .ok event => .ok (event, rest)
    | .error error => .error (.refused error)

/-- A record whose first line has been read; `after` is what follows that line. -/
def decodeRecord (numbers : Numbers) (firstLine : Text) (after : Option Text) :
    Except Fault (RawCaptureEvent × Option Text) :=
  match decodeEventType firstLine with
  | .error error => .error (.refused error)
  | .ok event =>
    match after with
    | none => finalizeDecodedEvent none { event := event }
    | some after =>
      match readFields numbers after { event := event } with
      | .error error => .error (.refused error)
      | .ok (decoded, rest) => finalizeDecodedEvent rest decoded

theorem finalizeDecodedEvent_length {rest : Option Text} {decoded : DecodedEvent}
    {event : RawCaptureEvent} {left : Text}
    (h : finalizeDecodedEvent rest decoded = .ok (event, some left)) :
    ∃ before, rest = some before ∧ left.length ≤ before.length := by
  unfold finalizeDecodedEvent at h
  split at h
  · split at h
    · cases h
    · split at h
      · cases h
      · split at h
        · cases h
        · cases h
          exact ⟨_, rfl, by simp⟩
  · split at h
    · cases h
      exact ⟨_, rfl, le_refl _⟩
    · cases h

theorem readFields_length {numbers : Numbers} {rest left : Text} {decoded after : DecodedEvent}
    (h : readFields numbers rest decoded = .ok (after, some left)) :
    left.length ≤ rest.length := by
  induction hlength : rest.length using Nat.strong_induction_on generalizing rest decoded with
  | _ length ih =>
    rw [readFields] at h
    split at h
    · cases h
      simp
    · split at h
      · split at h
        · cases h
        · obtain ⟨_, _, h⟩ := Data.bind_eq_ok.mp h
          cases h
      · rename_i line next hcut
        have hshorter := Lines.length_of_cut hcut
        split at h
        · cases h
          omega
        · obtain ⟨_, _, h⟩ := Data.bind_eq_ok.mp h
          have hle := ih next.length (by omega) h rfl
          omega

theorem decodeRecord_length {numbers : Numbers} {firstLine : Text} {after : Option Text}
    {event : RawCaptureEvent} {left : Text}
    (h : decodeRecord numbers firstLine after = .ok (event, some left)) :
    ∃ next, after = some next ∧ left.length ≤ next.length := by
  unfold decodeRecord at h
  split at h
  · cases h
  · split at h
    · obtain ⟨_, hnone, _⟩ := finalizeDecodedEvent_length h
      cases hnone
    · rename_i next
      split at h
      · cases h
      · rename_i decoded rest hfields
        obtain ⟨before, rfl, hle⟩ := finalizeDecodedEvent_length h
        exact ⟨next, rfl, hle.trans (readFields_length hfields)⟩

def decodeEventStream (numbers : Numbers) (bytes : Text) : Except Fault (List RawCaptureEvent) :=
  if bytes = [] then .ok []
  else
    match _hcut : Lines.cut lineFeed bytes with
    | (line, none) =>
      if Lines.trim line = [] then .ok []
      else do
        let (event, _) ← decodeRecord numbers (Lines.trim line) none
        return [event]
    | (line, some after) =>
      if Lines.trim line = [] then decodeEventStream numbers after
      else
        match _hrecord : decodeRecord numbers (Lines.trim line) (some after) with
        | .error fault => .error fault
        | .ok (event, none) => .ok [event]
        | .ok (event, some rest) => do
          let events ← decodeEventStream numbers rest
          return event :: events
termination_by bytes.length
decreasing_by
  · exact Lines.length_of_cut _hcut
  · obtain ⟨next, hnext, hle⟩ := decodeRecord_length _hrecord
    cases hnext
    exact Nat.lt_of_le_of_lt hle (Lines.length_of_cut _hcut)

/-- The record must be the only one. -/
def decodeRawCaptureEventRecordText (numbers : Numbers) (record : Text) :
    Except Fault RawCaptureEvent := do
  match ← decodeEventStream numbers record with
  | [event] => return event
  | _ => .error (.refused "psraw 事件记录数量错误")

end ProtoScope.Plot
