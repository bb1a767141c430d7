/-
Analysing one candidate frame.

Given the bytes from a matched header on, `analyzeFrame` finds the frame's length,
checks it against the window, checks the CRC and decodes the fields.  It reads the schema
and the runtime profiles but never the ring buffer, so it is stated over the part of
the parser that a push leaves alone.

The source returns a `bool` and fills a result; `false` with an untouched result means
that more bytes may still complete the frame.  Here both reasons to stop are values.
-/
import ProtoScope.Scripting.StreamFields

namespace ProtoScope.Scripting

/-- What the parser reads besides its bytes. -/
structure FrameStreamConfig where
  bufferDefinition : StreamBufferDefinition
  frames : List StreamFrameDefinition
  runtimeProfiles : AList fun _ : String => StreamRuntimeProfile := ∅

/-- Why a candidate gave no frame. -/
inductive AnalyzeStop where
  | needMore
  | recoverableError (error : StreamParseError)
deriving DecidableEq, Repr

/-- The parsed frame and its length. -/
abbrev AnalyzeResult := Except AnalyzeStop (StreamParsedFrame × Nat)

/-! ### Errors -/

def frameError (frame : StreamFrameDefinition) (code : StreamParseErrorCode) (message : String)
    (raw : List UInt8) : AnalyzeStop :=
  .recoverableError
    { code := code, message := message, frameName := some frame.name, droppedBytes := 0, raw := raw }

def setInvalidLengthError (frame : StreamFrameDefinition) (message : String) : AnalyzeStop :=
  frameError frame .invalidLength message []

def setCountResolveError (frame : StreamFrameDefinition) (raw : List UInt8) (countError : String) :
    AnalyzeStop :=
  frameError frame .countResolveFailed
    (if countError.isEmpty then "字段数量解析失败" else countError) raw

def setFieldDecodeError (frame : StreamFrameDefinition) (raw : List UInt8) (message : String) :
    AnalyzeStop :=
  frameError frame .fieldDecodeFailed message raw

/-! ### The fields of a complete frame -/

structure FieldDecodePlan where
  start : Nat
  count : Nat
  width : Nat
  «end» : Nat

def resolveFieldDecodePlan (frame : StreamFrameDefinition) (field : StreamFieldDefinition)
    (raw : List UInt8) (readableLimit cursor : Nat) (parsedFields : StreamFieldMap) :
    Except AnalyzeStop FieldDecodePlan :=
  let start := field.offset.getD cursor
  let width := streamValueWidth field.type
  match resolveFieldCount field parsedFields raw.length readableLimit start with
  | .error countError => .error (setCountResolveError frame raw countError)
  | .ok count =>
    match checkedMultiplySize count width with
    | none => .error (setFieldDecodeError frame raw "字段大小溢出")
    | some fieldBytes =>
      match checkedAddSize start fieldBytes with
      | none => .error (setFieldDecodeError frame raw "字段大小溢出")
      | some fieldEnd => .ok ⟨start, count, width, fieldEnd⟩

def decodeFieldValue (field : StreamFieldDefinition) (raw : List UInt8) (plan : FieldDecodePlan) :
    StreamFieldValue :=
  if field.type == .bytes then .bytes ((raw.drop plan.start).take plan.count)
  else if streamValueTypeIsFloat field.type then
    if plan.count = 1 then .real ((decodeFloat raw plan.start field.type).getD 0.0)
    else .reals ((List.range plan.count).map fun index =>
      (decodeFloat raw (plan.start + index * plan.width) field.type).getD 0.0)
  else
    if plan.count = 1 then .integer ((decodeInteger raw plan.start field.type).getD 0)
    else .integers ((List.range plan.count).map fun index =>
      (decodeInteger raw (plan.start + index * plan.width) field.type).getD 0)

/-- The field loop.  A field outside a runtime-profile frame is skipped, elsewhere an error. -/
def decodeFrameFields (frame : StreamFrameDefinition) (raw : List UInt8) (readableLimit : Nat) :
    List StreamFieldDefinition → Nat → StreamFieldMap → Except AnalyzeStop StreamFieldMap
  | [], _, parsedFields => .ok parsedFields
  | field :: rest, cursor, parsedFields =>
    match resolveFieldDecodePlan frame field raw readableLimit cursor parsedFields with
    | .error stop => .error stop
    | .ok plan =>
      if plan.start ≤ readableLimit ∧ plan.end ≤ readableLimit then
        decodeFrameFields frame raw readableLimit rest (max cursor plan.end)
          (parsedFields.insert field.name (decodeFieldValue field raw plan))
      else if frame.runtimeProfile then
        decodeFrameFields frame raw readableLimit rest cursor parsedFields
      else .error (setFieldDecodeError frame raw "字段超出帧有效载荷范围")

def validateFrameCrc (frame : StreamFrameDefinition) (raw : List UInt8) :
    Except AnalyzeStop Unit :=
  let crcWidth := streamCrcWidth frame.crc.type
  if crcWidth = 0 then .ok ()
  else
    let covered := raw.take (raw.length - crcWidth)
    let expected : UInt32 :=
      match frame.crc.type with
      | .crc16Modbus => (ProtocolUtils.crc16Modbus covered).toUInt32
      | .crc16CcittFalse => (ProtocolUtils.crc16CcittFalse covered).toUInt32
      | .crc32Ieee => ProtocolUtils.crc32Ieee covered
      | .none => 0
    if expected = readCrcValue raw crcWidth frame.crc.order then .ok ()
    else .error (frameError frame .crcMismatch "CRC 校验失败" raw)

namespace FrameStreamConfig

/-! ### The frame length -/

def resolveRuntimeProfileFrameLength (config : FrameStreamConfig) (frame : StreamFrameDefinition) :
    Except AnalyzeStop Nat :=
  match config.runtimeProfiles.lookup frame.name with
  | none => .error (setInvalidLengthError frame "runtime_profile 帧缺少运行时长度")
  | some profile => .ok profile.length

def resolveLengthFieldFrameLength (frame : StreamFrameDefinition) (len : StreamLengthDefinition)
    (window : List UInt8) : Except AnalyzeStop Nat :=
  match checkedAddSize len.offset (streamValueWidth len.type) with
  | none => .error (setInvalidLengthError frame "长度字段 offset 溢出")
  | some lengthFieldEnd =>
    if window.length < lengthFieldEnd then .error .needMore
    else
      match decodeInteger window len.offset len.type with
      | none => .error (setInvalidLengthError frame "长度字段解析失败")
      | some parsedLength =>
        if parsedLength < 0 then .error (setInvalidLengthError frame "长度字段解析失败")
        else
          match len.means with
          | .payload =>
            match checkedAddSize parsedLength.toNat len.extra with
            | none => .error (setInvalidLengthError frame "长度字段加成后溢出")
            | some frameLength => .ok frameLength
          | .frame => .ok parsedLength.toNat

def validateResolvedFrameLength (config : FrameStreamConfig) (frame : StreamFrameDefinition)
    (frameLength : Nat) : Except AnalyzeStop Nat :=
  if frameLength = 0 then .error (setInvalidLengthError frame "帧长度必须大于 0")
  else if config.bufferDefinition.capacity < frameLength ∧ 0 < config.bufferDefinition.capacity then
    .error (setInvalidLengthError frame "帧长度超过缓冲区容量")
  else .ok frameLength

/-- The length by profile, by fixed size or by length field, before it is checked. -/
def declaredFrameLength (config : FrameStreamConfig) (frame : StreamFrameDefinition)
    (window : List UInt8) : Except AnalyzeStop Nat :=
  if frame.runtimeProfile then config.resolveRuntimeProfileFrameLength frame
  else
    match frame.size, frame.len with
    | some size, _ => .ok size
    | none, some len => resolveLengthFieldFrameLength frame len window
    | none, none => .ok 0

def resolveFrameLength (config : FrameStreamConfig) (frame : StreamFrameDefinition)
    (window : List UInt8) : Except AnalyzeStop Nat := do
  let frameLength ← config.declaredFrameLength frame window
  config.validateResolvedFrameLength frame frameLength

def validateFrameBounds (frame : StreamFrameDefinition) (window : List UInt8) (frameLength : Nat) :
    Except AnalyzeStop Unit :=
  if window.length < frameLength then .error .needMore
  else if frameLength < frame.header.length + streamCrcWidth frame.crc.type then
    .error (frameError frame .invalidLength "帧长度不足以容纳帧头与 CRC" (window.take frameLength))
  else .ok ()

def applyRuntimeChannelMap (config : FrameStreamConfig) (definition : StreamFrameDefinition)
    (frame : StreamParsedFrame) : Except String StreamParsedFrame :=
  if definition.runtimeProfile then
    match config.runtimeProfiles.lookup definition.name with
    | none => .error "runtime_profile 帧缺少 channel_map"
    | some profile => .ok { frame with channelMap := profile.channelMap }
  else .ok frame

/-- The checks and the decode of a frame whose bytes are all there. -/
def decodeFrame (config : FrameStreamConfig) (frame : StreamFrameDefinition) (raw : List UInt8)
    (options : StreamParseOptions) : Except AnalyzeStop StreamParsedFrame := do
  validateFrameCrc frame raw
  let readableLimit := raw.length - streamCrcWidth frame.crc.type
  let parsedFields ← decodeFrameFields frame raw readableLimit frame.fields 0 ∅
  match config.applyRuntimeChannelMap frame
      { name := frame.name
        raw := if options.includeFrameRaw then raw else []
        fields := parsedFields
        crcOk := true
        channelMap := [] } with
  | .error mapError => .error (setFieldDecodeError frame raw mapError)
  | .ok parsed => .ok parsed

def analyzeFrame (config : FrameStreamConfig) (frame : StreamFrameDefinition)
    (window : List UInt8) (options : StreamParseOptions) : AnalyzeResult :=
  if window = [] then .error .needMore
  else do
    let frameLength ← config.resolveFrameLength frame window
    validateFrameBounds frame window frameLength
    let parsed ← config.decodeFrame frame (window.take frameLength) options
    .ok (parsed, frameLength)

end FrameStreamConfig

end ProtoScope.Scripting
