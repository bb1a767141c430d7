/-
The stream parser: it buffers what arrives, finds the next header, and turns complete
frames into results, skipping what cannot be a frame.

The scan loop of the source runs until it breaks or the buffer is empty.  `scanStep` is
its body, `scanLoop` runs it on as much fuel as there are bytes; that this is always
enough is proved with the byte accounting.

The source keeps the candidates of each first byte as sorted index lists, built once from
the immutable frame list; here an index is the definition it stands for.
-/
import Mathlib.Data.List.Sort
import ProtoScope.Scripting.ByteRingBuffer
import ProtoScope.Scripting.FrameAnalysis

namespace ProtoScope.Scripting

/-! ### Compiled frames -/

def applyDeclaredFrameLengthMinimum (frame : StreamFrameDefinition) (minFrameLength : Nat) : Nat :=
  match frame.size, frame.len with
  | some size, _ => size
  | none, some len =>
    match checkedAddSize len.offset (streamValueWidth len.type) with
    | some lengthFieldEnd => max minFrameLength lengthFieldEnd
    | none => sizeMax
  | none, none => minFrameLength

def accumulateFixedFieldBytes : List StreamFieldDefinition → Nat → Nat
  | [], fixedFieldBytes => fixedFieldBytes
  | field :: rest, fixedFieldBytes =>
    match field.count.fixed with
    | none => accumulateFixedFieldBytes rest fixedFieldBytes
    | some fixed =>
      match (checkedMultiplySize fixed (streamValueWidth field.type)).bind
          (checkedAddSize fixedFieldBytes) with
      | some total => accumulateFixedFieldBytes rest total
      | none => sizeMax

/-- `compileFrameMetadata`: the length a frame has at least, by which candidates are ordered. -/
def minFrameLength (frame : StreamFrameDefinition) : Nat :=
  let declared := applyDeclaredFrameLengthMinimum frame frame.header.length
  match checkedAddSize frame.header.length (accumulateFixedFieldBytes frame.fields 0) with
  | some fixedMinimum => max declared fixedMinimum
  | none => sizeMax

namespace FrameStreamConfig

def maxHeaderLength (config : FrameStreamConfig) : Nat :=
  config.frames.foldl (fun longest frame => max longest frame.header.length) 0

/-- `sortedHeaderFirstByteIndex_[first]`: longest minimum first, declaration order among equals. -/
def sortedHeaderBucket (config : FrameStreamConfig) (first : UInt8) : List StreamFrameDefinition :=
  (config.frames.filter fun frame => frame.header.head? == some first).insertionSort
    fun left right => minFrameLength right ≤ minFrameLength left

/-! ### The candidate search -/

structure CandidateMatch where
  start : Nat
  candidates : List StreamFrameDefinition

/-- The bytes of `header` after its first, compared at `start`; the bucket settled the first. -/
def headerMatches (header window : List UInt8) (start : Nat) : Bool :=
  !header.isEmpty && start + header.length ≤ window.length &&
    (window.drop (start + 1)).take (header.length - 1) == header.drop 1

def matchedCandidates (config : FrameStreamConfig) (window : List UInt8) (start : Nat) :
    List StreamFrameDefinition :=
  match window[start]? with
  | none => []
  | some first =>
    (config.sortedHeaderBucket first).filter fun frame => headerMatches frame.header window start

def findCandidate (config : FrameStreamConfig) (window : List UInt8) : Option CandidateMatch :=
  (List.range window.length).findSome? fun start =>
    match config.matchedCandidates window start with
    | [] => none
    | candidates => some ⟨start, candidates⟩

inductive CandidateParseResult where
  | needMore
  | parsed (frame : StreamParsedFrame) (frameLength : Nat)
  | recoverableError (error : Option StreamParseError)

/-- The candidate loop of `analyzeCandidateFrames`, with its two locals. -/
def analyzeCandidates (config : FrameStreamConfig) (window : List UInt8)
    (options : StreamParseOptions) :
    List StreamFrameDefinition → Bool → Option StreamParseError → CandidateParseResult
  | [], needMore, firstError => if needMore then .needMore else .recoverableError firstError
  | frame :: rest, needMore, firstError =>
    match config.analyzeFrame frame window options with
    | .ok (parsed, frameLength) => .parsed parsed frameLength
    | .error .needMore => analyzeCandidates config window options rest true firstError
    | .error (.recoverableError error) =>
      analyzeCandidates config window options rest needMore (firstError <|> some error)

def analyzeCandidateFrames (config : FrameStreamConfig) (candidate : CandidateMatch)
    (window : List UInt8) (options : StreamParseOptions) : CandidateParseResult :=
  config.analyzeCandidates window options candidate.candidates false none

end FrameStreamConfig

namespace StreamParseBatch

def pushFrame (batch : StreamParseBatch) (frame : StreamParsedFrame) : StreamParseBatch :=
  { batch with
    events := batch.events ++ [.frame batch.frames.length]
    frames := batch.frames ++ [frame] }

def pushError (batch : StreamParseBatch) (error : StreamParseError) : StreamParseBatch :=
  { batch with
    events := batch.events ++ [.error batch.errors.length]
    errors := batch.errors ++ [error] }

end StreamParseBatch

def noiseError (message : String) (droppedBytes : Nat) : StreamParseError :=
  { code := .noiseDiscarded, message := message, frameName := none, droppedBytes := droppedBytes
    raw := [] }

/-- The parser: its configuration and the bytes it holds. -/
structure FrameStreamParser extends FrameStreamConfig where
  buffer : ByteRingBuffer

namespace FrameStreamParser

/-- `FrameStreamParser(buffer, frames)`. -/
def create (bufferDefinition : StreamBufferDefinition) (frames : List StreamFrameDefinition) :
    FrameStreamParser where
  bufferDefinition := bufferDefinition
  frames := frames
  buffer := .ofCapacity bufferDefinition.capacity

def reset (parser : FrameStreamParser) : FrameStreamParser :=
  { parser with buffer := parser.buffer.reset }

/-! ### Runtime profiles -/

def clearRuntimeProfiles (parser : FrameStreamParser) : FrameStreamParser :=
  { parser with runtimeProfiles := ∅ }

def setRuntimeProfile (parser : FrameStreamParser) (frameName : String)
    (profile : StreamRuntimeProfile) : Except String FrameStreamParser :=
  match parser.frames.find? fun frame => frame.name == frameName with
  | none => .error ("未找到 stream frame: " ++ frameName)
  | some frame =>
    if !frame.runtimeProfile then .error ("frame 未声明 runtime_profile: " ++ frameName)
    else if profile.length = 0 then .error "runtime profile length 必须大于 0"
    else if 0 < parser.bufferDefinition.capacity ∧
        parser.bufferDefinition.capacity < profile.length then
      .error "runtime profile length 超出 stream buffer 容量"
    else
      let maxTarget := profile.channelMap.foldl max 0
      if profile.channelMap ≠ [] ∧ maxTarget = sizeMax then
        .error "runtime profile channel_map 最大目标超出索引范围"
      else if profile.channelMap ≠ [] ∧ int64Max.toNat - 1 < maxTarget then
        .error "runtime profile channel_map 最大目标超出 Lua 整数范围"
      else if !profile.channelMap.Nodup then
        .error "runtime profile channel_map 存在重复目标"
      else .ok { parser with runtimeProfiles := parser.runtimeProfiles.insert frameName profile }

def clearRuntimeProfile (parser : FrameStreamParser) (frameName : Option String) :
    Except String FrameStreamParser :=
  match frameName with
  | none => .ok parser.clearRuntimeProfiles
  | some frameName =>
    if frameName ∈ parser.runtimeProfiles then
      .ok { parser with runtimeProfiles := parser.runtimeProfiles.erase frameName }
    else .error ("runtime profile 不存在: " ++ frameName)

/-! ### Appending -/

/-- The capacity that holds the old and the new bytes, saturating at the word size. -/
def requiredCapacity (parser : FrameStreamParser) (incomingSize : Nat) : Nat :=
  let availableCapacity := sizeMax - parser.buffer.size
  if availableCapacity < incomingSize then sizeMax else parser.buffer.size + incomingSize

def ensureAppendCapacity (parser : FrameStreamParser) (incomingSize : Nat) : FrameStreamParser :=
  if parser.bufferDefinition.dropOldest then parser
  else
    let requiredCapacity := parser.requiredCapacity incomingSize
    if parser.buffer.capacity < requiredCapacity ∧
        parser.buffer.capacity < parser.bufferDefinition.maxCapacity then
      { parser with
        buffer := parser.buffer.ensureCapacity
          (min requiredCapacity parser.bufferDefinition.maxCapacity) }
    else parser

/-- `static_cast<double>` of a size. -/
def toDouble (n : Nat) : Float := (UInt64.ofNat n).toFloat

def updateNearOverflowStatus (parser : FrameStreamParser) (batch : StreamParseBatch) :
    StreamParseBatch :=
  if parser.bufferDefinition.nearOverflowNotify ∧ 0 < batch.bufferCapacity ∧ !batch.overflowed then
    let ratio := toDouble batch.bufferSize / toDouble batch.bufferCapacity
    { batch with nearOverflow := parser.bufferDefinition.nearOverflowThresholdRatio ≤ ratio }
  else batch

def appendIncomingBytes (parser : FrameStreamParser) (bytes : List UInt8) :
    FrameStreamParser × StreamParseBatch :=
  let grown := parser.ensureAppendCapacity bytes.length
  let (buffer, dropped) := grown.buffer.append bytes parser.bufferDefinition.dropOldest
  let appended := { grown with buffer := buffer }
  let batch : StreamParseBatch :=
    { bufferSize := buffer.size
      bufferCapacity := buffer.capacity
      droppedBytes := dropped
      overflowed := decide (0 < dropped) }
  let batch :=
    if 0 < dropped then
      batch.pushError
        { code := .overflow, message := "环形缓冲区超限，已丢弃最旧字节", frameName := none
          droppedBytes := dropped, raw := [] }
    else batch
  (appended, appended.updateNearOverflowStatus batch)

/-! ### The scan loop -/

def ensureLinearWindow (parser : FrameStreamParser) : List UInt8 :=
  (parser.buffer.linearRead 0 parser.buffer.size).data

def discardFront (parser : FrameStreamParser) (count : Nat) : FrameStreamParser :=
  { parser with buffer := parser.buffer.discardFront count }

def discardUnmatchedPrefix (parser : FrameStreamParser) (batch : StreamParseBatch) :
    FrameStreamParser × StreamParseBatch :=
  let keep := if 0 < parser.maxHeaderLength then parser.maxHeaderLength - 1 else 0
  if parser.buffer.size ≤ keep then (parser, batch)
  else
    let droppedNoise := parser.buffer.size - keep
    (parser.discardFront droppedNoise,
      batch.pushError (noiseError "未找到匹配帧头，已丢弃噪声前缀" droppedNoise))

/-- How one turn of the loop ends: with `break`, or with another turn. -/
inductive ScanStep where
  | stop (parser : FrameStreamParser) (batch : StreamParseBatch)
  | next (parser : FrameStreamParser) (batch : StreamParseBatch)

def scanStep (parser : FrameStreamParser) (options : StreamParseOptions)
    (batch : StreamParseBatch) : ScanStep :=
  let window := parser.ensureLinearWindow
  match parser.findCandidate window with
  | none =>
    let (parser, batch) := parser.discardUnmatchedPrefix batch
    .stop parser batch
  | some candidate =>
    if candidate.start ≠ 0 then
      .next (parser.discardFront candidate.start)
        (batch.pushError (noiseError "已跳过帧头前噪声字节" candidate.start))
    else
      match parser.analyzeCandidateFrames candidate window options with
      | .parsed frame frameLength => .next (parser.discardFront frameLength) (batch.pushFrame frame)
      | .needMore => .stop parser batch
      | .recoverableError (some error) => .next (parser.discardFront 1) (batch.pushError error)
      | .recoverableError none => .next (parser.discardFront 1) batch

def scanLoop (options : StreamParseOptions) :
    Nat → FrameStreamParser → StreamParseBatch → FrameStreamParser × StreamParseBatch
  | 0, parser, batch => (parser, batch)
  | fuel + 1, parser, batch =>
    if parser.buffer.empty then (parser, batch)
    else
      match parser.scanStep options batch with
      | .stop parser batch => (parser, batch)
      | .next parser batch => scanLoop options fuel parser batch

def pushBytes (parser : FrameStreamParser) (bytes : List UInt8) (options : StreamParseOptions := {}) :
    FrameStreamParser × StreamParseBatch :=
  if bytes = [] then
    (parser, { bufferSize := parser.buffer.size, bufferCapacity := parser.buffer.capacity })
  else
    let (appended, batch) := parser.appendIncomingBytes bytes
    if appended.frames = [] then (appended, batch)
    else
      let (scanned, batch) := scanLoop options appended.buffer.size appended batch
      (scanned, { batch with bufferSize := scanned.buffer.size })

end FrameStreamParser

end ProtoScope.Scripting
