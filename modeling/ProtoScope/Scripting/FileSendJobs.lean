/-
Sending a file in chunks.

`proto.fs.send_file` opens a file and makes a job, which reads the file chunk by chunk and
issues each chunk as a request of its own, a window of them at a time.  The events of the
requests drive it on: a finished chunk makes room for the next, a failed one ends the job.

Whether a file can be opened, and whether a read fails, are arguments of the steps.  The
records keep what became of each job; no function of the host reads them.
-/
import Mathlib.Algebra.GroupWithZero.Nat
import Mathlib.Logic.Function.Basic
import ProtoScope.Scripting.ScriptOutputs

namespace ProtoScope.Scripting

open ProtoScope.Transport

structure SendFileConfig where
  defaultChunkBytes : Nat := 65536
  maxInflightChunks : Nat := 2

structure FileIoConfig where
  defaultChunkBytes : Nat := 65536
  maxChunkBytes : Nat := 1048576
  sendFile : SendFileConfig := {}

/-- Whether more can be read from a stream: it has met the end of its file, or a read failed. -/
inductive StreamState where
  | good
  | ended
  | broken
deriving DecidableEq, Repr

structure FileHandle where
  content : List UInt8
  position : Nat := 0
  state : StreamState := .good

inductive ReadResult where
  | buffer (bytes : List UInt8)
  | eof
  | error
deriving DecidableEq, Repr

/-- A read that comes to the end before it has all its bytes ends the stream; only a read
without any byte reports the end. -/
def FileHandle.read (handle : FileHandle) (maxBytes : Nat) (fails : Bool) :
    FileHandle × ReadResult :=
  match handle.state with
  | .ended => (handle, .eof)
  | .broken => (handle, .error)
  | .good =>
    if fails then ({ handle with state := .broken }, .error)
    else
      let bytes := (handle.content.drop handle.position).take maxBytes
      let handle :=
        { handle with
          position := handle.position + bytes.length
          state := if bytes.length < maxBytes then .ended else .good }
      (handle, if bytes.isEmpty then .eof else .buffer bytes)

structure FileSendJob where
  id : Nat
  handleId : Nat
  kind : TxRequestKind
  tag : String
  chunkSize : Nat
  total : Nat
  nextOffset : Nat := 0
  inflight : List Nat := []
  eof : Bool := false

/-- What became of a job: the requests it issued, those counted as finished, and how its
reading and the job itself came to an end. -/
structure FileSendRecord where
  content : List UInt8 := []
  handleId : Nat := 0
  issued : List TxRequest := []
  finished : List Nat := []
  endReached : Bool := false
  readFailed : Bool := false
  failed : Bool := false

structure FileSendHost where
  fileSendJobs : Nat → Option FileSendJob := fun _ => none
  fileHandles : Nat → Option FileHandle := fun _ => none
  txRequests : List TxRequest := []
  activeConnection : Option ConnectionContext := none
  nextTxRequestId : Nat := 1
  nextFileHandleId : Nat := 1
  nextFileJobId : Nat := 1
  executionFaulted : Bool := false
  records : Nat → FileSendRecord := fun _ => {}
  /-- the handles closed, each time one was found open -/
  closed : List Nat := []

/-- What a step meets with: the time, and which reads fail, by the job's offset. -/
structure Circumstances where
  nowMs : Nat := 0
  readFails : Nat → Bool := fun _ => false

def positiveSizeOrDefault (value fallback : Nat) : Nat := if value = 0 then fallback else value

/-- The size of the buffer that `proto.fs.read` reads into. -/
def readLimit (config : FileIoConfig) (maxBytes : Option Int) : Nat :=
  let maxBytes :=
    match maxBytes with
    | some value => (max 1 value).toNat
    | none => config.defaultChunkBytes
  min (positiveSizeOrDefault maxBytes config.defaultChunkBytes) config.maxChunkBytes

def maxInflight (config : FileIoConfig) : Nat := max 1 config.sendFile.maxInflightChunks

namespace FileSendHost

/-- Notes something in the record of a job. -/
def note (host : FileSendHost) (jobId : Nat) (f : FileSendRecord → FileSendRecord) : FileSendHost :=
  { host with records := Function.update host.records jobId (f (host.records jobId)) }

def protoFsRead (config : FileIoConfig) (host : FileSendHost) (handleId : Nat)
    (maxBytes : Option Int) (fails : Bool) : FileSendHost × ReadResult :=
  match host.fileHandles handleId with
  | none => (host, .error)
  | some handle =>
    let (handle, result) := handle.read (readLimit config maxBytes) fails
    ({ host with fileHandles := Function.update host.fileHandles handleId (some handle) }, result)

def protoFsClose (host : FileSendHost) (handleId : Nat) : FileSendHost :=
  match host.fileHandles handleId with
  | none => host
  | some _ =>
    { host with
      fileHandles := Function.update host.fileHandles handleId none
      closed := host.closed ++ [handleId] }

def createTxRequest (host : FileSendHost) (kind : TxRequestKind) (payload : List UInt8)
    (nowMs : Nat) : TxRequest where
  id := host.nextTxRequestId
  kind := kind
  connection := host.activeConnection.getD
    { endpoint := "detached", timestampMs := nowMs, readyForIo := false }
  payload := payload
  timeoutMs := 0
  createdAtMs := nowMs

/-- `protoSendLike` for a buffer and without options, which never refuses, and what the pump
then writes into the request. -/
def issueChunk (host : FileSendHost) (job : FileSendJob) (payload : List UInt8) (nowMs : Nat) :
    FileSendHost × FileSendJob :=
  let request := host.createTxRequest job.kind payload nowMs
  let request :=
    { request with
      tag := if job.tag.isEmpty then request.tag else job.tag
      fileJobId := job.id
      fileOffset := job.nextOffset
      fileTotal := job.total }
  let host :=
    { host with
      txRequests := host.txRequests ++ [request]
      nextTxRequestId := host.nextTxRequestId + 1 }
  let job :=
    { job with
      nextOffset := job.nextOffset + payload.length
      inflight := job.inflight.insert request.id }
  (host.note job.id fun record => { record with issued := record.issued ++ [request] }, job)

/-- The loop of `pumpFileSendJob`; each round issues a chunk or is the last, so there are no
more rounds than the window has places.  The chunk size is passed on as an `int`. -/
def pumpLoop (config : FileIoConfig) (circumstances : Circumstances) :
    Nat → FileSendHost → FileSendJob → FileSendHost × FileSendJob
  | 0, host, job => (host, job)
  | rounds + 1, host, job =>
    if job.eof || decide (maxInflight config ≤ job.inflight.length) then (host, job)
    else
      match protoFsRead config host job.handleId (some (Int.bmod job.chunkSize (2 ^ 32)))
        (circumstances.readFails job.nextOffset) with
      | (host, .eof) =>
        (host.note job.id fun record => { record with endReached := true },
          { job with eof := true })
      | (host, .error) =>
        (host.note job.id fun record => { record with readFailed := true },
          { job with eof := true })
      | (host, .buffer payload) =>
        let (host, job) := host.issueChunk job payload circumstances.nowMs
        pumpLoop config circumstances rounds host job

def setJob (host : FileSendHost) (jobId : Nat) (job : Option FileSendJob) : FileSendHost :=
  { host with fileSendJobs := Function.update host.fileSendJobs jobId job }

def pumpFileSendJob (config : FileIoConfig) (circumstances : Circumstances) (host : FileSendHost)
    (jobId : Nat) : FileSendHost :=
  match host.fileSendJobs jobId with
  | none => host
  | some job =>
    let (host, job) := pumpLoop config circumstances (maxInflight config) host job
    if job.eof && job.inflight.isEmpty then (host.setJob jobId none).protoFsClose job.handleId
    else host.setJob jobId (some job)

structure SendFileOptions where
  kind : String := "send"
  tag : String := "file"
  chunkSize : Option Int := none

/-- `protoFsSendFile`.  `opened` is the content of the file, if it can be opened; its size may
still be refused. -/
def protoFsSendFile (config : FileIoConfig) (circumstances : Circumstances) (host : FileSendHost)
    (options : SendFileOptions) (opened : Option (List UInt8)) (sizeError : Bool) :
    FileSendHost × Option Nat :=
  if options.kind != "send" && options.kind != "request" then (host, none)
  else
    let chunkSize :=
      match options.chunkSize with
      | some chunk => (max 1 chunk).toNat
      | none => config.sendFile.defaultChunkBytes
    let chunkSize := min chunkSize config.maxChunkBytes
    match opened with
    | none => (host, none)
    | some content =>
      let handleId := host.nextFileHandleId
      let host :=
        { host with
          nextFileHandleId := handleId + 1
          fileHandles := Function.update host.fileHandles handleId (some { content := content }) }
      if sizeError then (host.protoFsClose handleId, none)
      else
        let jobId := host.nextFileJobId
        let job : FileSendJob :=
          { id := jobId
            handleId := handleId
            kind := if options.kind == "request" then .request else .send
            tag := options.tag
            chunkSize := chunkSize
            total := content.length }
        let host := { host with nextFileJobId := jobId + 1 }.setJob jobId (some job)
        let host := host.note jobId fun _ => { content := content, handleId := handleId }
        (host.pumpFileSendJob config circumstances jobId, some jobId)

def failedState : TxEventState → Bool
  | .failed | .rejected | .dropped | .canceled | .timeout => true
  | .sent | .completed => false

def completedState : TxRequestKind → TxEventState → Bool
  | .request, state => state == .completed
  | .send, state => state == .sent

/-- `onTxEvent` up to the callback of the script. -/
def onTxEvent (config : FileIoConfig) (circumstances : Circumstances) (host : FileSendHost)
    (event : TxEvent) : FileSendHost :=
  if event.fileJobId = 0 ∨ host.executionFaulted = true then host
  else
    match host.fileSendJobs event.fileJobId with
    | none => host
    | some job =>
      if event.id ∈ job.inflight then
        if failedState event.state then
          let host := host.setJob event.fileJobId none
          let host := host.note event.fileJobId fun record => { record with failed := true }
          { host with
            txRequests := host.txRequests.filter (·.fileJobId != event.fileJobId) }.protoFsClose
            job.handleId
        else if completedState job.kind event.state then
          let host := host.setJob event.fileJobId
            (some { job with inflight := job.inflight.erase event.id })
          let host := host.note event.fileJobId fun record =>
            { record with finished := record.finished ++ [event.id] }
          host.pumpFileSendJob config circumstances event.fileJobId
        else host
      else host

/-- A request of the script that belongs to no file. -/
def protoSend (host : FileSendHost) (kind : TxRequestKind) (payload : List UInt8) (nowMs : Nat) :
    FileSendHost :=
  { host with
    txRequests := host.txRequests ++ [host.createTxRequest kind payload nowMs]
    nextTxRequestId := host.nextTxRequestId + 1 }

def takeTxRequests (host : FileSendHost) : FileSendHost := { host with txRequests := [] }

def requestStop (host : FileSendHost) : FileSendHost := { host with executionFaulted := true }

/-! ### Runs -/

/-- The events arrive in any order, for any id and state; between them the script starts jobs
and issues other requests, and the program takes the requests. -/
inductive FileSendStep where
  | sendFile (circumstances : Circumstances) (options : SendFileOptions)
      (opened : Option (List UInt8)) (sizeError : Bool)
  | txEvent (circumstances : Circumstances) (event : TxEvent)
  | send (kind : TxRequestKind) (payload : List UInt8) (nowMs : Nat)
  | takeTxRequests
  | connection (context : Option ConnectionContext)
  | requestStop

def step (config : FileIoConfig) (host : FileSendHost) : FileSendStep → FileSendHost
  | .sendFile circumstances options opened sizeError =>
    (host.protoFsSendFile config circumstances options opened sizeError).1
  | .txEvent circumstances event => host.onTxEvent config circumstances event
  | .send kind payload nowMs => host.protoSend kind payload nowMs
  | .takeTxRequests => host.takeTxRequests
  | .connection context => { host with activeConnection := context }
  | .requestStop => host.requestStop

def run (config : FileIoConfig) (steps : List FileSendStep) : FileSendHost :=
  steps.foldl (step config) {}

end FileSendHost

end ProtoScope.Scripting
