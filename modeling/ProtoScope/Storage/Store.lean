/-
The queues of the store: publications and other commands for the writer, requests for the
reader, and the completions that are polled.

Every critical section is one step, and so is every call that leaves the store: the writer
and the reader go from phase to phase, and at each phase that calls a database the outcome of
the call is given from outside.  When a thread wakes up is not modelled, so it may do so at
any time; a pass of the writer over an empty queue is its timed maintenance.

The values of the key-value store, the requests' contents, canceling and the numbers of
sessions and runs are left out, and so are suspending and resuming.
-/
import ProtoScope.Storage.RecordDirectory

namespace ProtoScope.Storage.Store

open ProtoScope.Data

/-- `Command::operation` and `Completion::operation`. -/
inductive Operation where
  | publish
  | start
  | stop
  | flush
  | set
  | delete
  | query
  | exportRecords
  | importRecords
deriving DecidableEq, Repr

structure Command where
  task : ℕ := 0
  operation : Operation
  bytes : ℕ
  records : List Record := []

structure ReadCommand where
  task : ℕ
  operation : Operation
  exportBytes : ℕ := 0

structure Completion where
  task : ℕ
  operation : Operation
  ok : Bool
  error : String := ""

structure Config where
  queueBytes : ℕ := 32 * 1024 * 1024
  batchRows : ℕ := 1000

/-- What the exceptions of a database or a file system carry: a message, never an empty one. -/
structure Failure where
  message : String
  nonempty : message ≠ ""

structure Status where
  recording : Bool := false
  faulted : Bool := false
  received : ℕ := 0
  queued : ℕ := 0
  committed : ℕ := 0
  failed : ℕ := 0
  queueBytes : ℤ := 0
  error : String := ""
  lastCommittedId : ℤ := 0
  lastCommittedTimeUs : Option Int64 := none
  interruptedFromUs : Option Int64 := none
  interruptedToUs : Option Int64 := none

/-- The live records of all volumes, as the coordinator appends them. -/
structure LiveRecords where
  lastId : ℤ := 0
  lastReceivedTimeUs : Option Int64 := none
  rows : List RecordRow := []

def LiveRecords.append (records : List Record) (live : LiveRecords) : LiveRecords where
  lastId := live.lastId + records.length
  lastReceivedTimeUs := (records.getLast?.map (·.receivedAtUs)).or live.lastReceivedTimeUs
  rows := live.rows ++ numberRecords live.lastId records

/-- What the writer goes on with after `persistFault`. -/
inductive AfterPersist where
  | maintain (active : Bool)
  | session (command : Command)
  | finish

/-- Where the writer stands. -/
inductive Writer where
  | opening
  | waiting
  | taken (batch : List Command)
  | appending (batch : List Command)
  | executing (command : Command)
  | session (command : Command)
  | settling (batch : List Command) (error : String)
  | committed
  | maintaining
  | persisting (next : AfterPersist)
  | faulting (next : AfterPersist)
  | idle
  | finishing
  | ended

inductive Reader where
  | waiting
  | running (command : ReadCommand)
  | ended

structure Impl where
  writes : List Command := []
  reads : List ReadCommand := []
  completions : List Completion := []
  pendingTasks : ℤ := 0
  pendingQueries : ℤ := 0
  pendingExportBytes : ℤ := 0
  queuedRows : ℤ := 0
  nextTask : ℕ := 1
  status : Status := {}
  stopping : Bool := false
  writing : Bool := false
  reading : Bool := false
  faultMetadataDirty : Bool := false
  volumes : LiveRecords := {}
  writer : Writer := .opening
  reader : Reader := .waiting

/-- The rows of some commands. -/
def rowCount (commands : List Command) : ℕ := (commands.map fun command => command.records.length).sum

def byteCount (commands : List Command) : ℕ := (commands.map (·.bytes)).sum

def recordsOf (commands : List Command) : List Record := commands.flatMap (·.records)

/-! ### Faults -/

def least (previous : Option Int64) (value : Int64) : Option Int64 :=
  match previous with
  | none => some value
  | some least => if value < least then some value else some least

def greatest (previous : Option Int64) (value : Int64) : Option Int64 :=
  match previous with
  | none => some value
  | some greatest => if greatest < value then some value else some greatest

def markInterrupted (records : List Record) (impl : Impl) : Impl :=
  { impl with
    faultMetadataDirty := true
    status :=
      { impl.status with
        interruptedFromUs := (records.map (·.receivedAtUs)).foldl least impl.status.interruptedFromUs
        interruptedToUs := (records.map (·.receivedAtUs)).foldl greatest impl.status.interruptedToUs } }

def maintenanceFault (error : String) (impl : Impl) : Impl :=
  { impl with
    status := { impl.status with faulted := true, recording := false, error := error }
    faultMetadataDirty := true }

/-- A call whose failure is a fault of the maintenance. -/
def maintain (outcome : Option Failure) (impl : Impl) : Impl :=
  match outcome with
  | none => impl
  | some failure => maintenanceFault failure.message impl

/-- The fault of a publication that is refused. -/
def refuse (records : List Record) (error : String) (impl : Impl) : Impl :=
  markInterrupted records
    { impl with
      status :=
        { impl.status with
          failed := impl.status.failed + records.length
          faulted := true
          recording := false
          error := error } }

/-! ### Calls of the application -/

/-- `start`, `stop`, `flush`, `set` and `erase`, by their operation and size. -/
def enqueue (config : Config) (operation : Operation) (bytes : ℕ) (impl : Impl) :
    Impl × Except String ℕ :=
  if impl.stopping = true ∨ (config.queueBytes : ℤ) - impl.status.queueBytes < bytes ∨
      65536 ≤ impl.writes.length ∨ 1024 ≤ impl.pendingTasks then
    (impl, .error "存储写队列已满或正在关闭")
  else
    ({ impl with
        nextTask := impl.nextTask + 1
        status := { impl.status with queueBytes := impl.status.queueBytes + bytes }
        writes := impl.writes ++ [{ task := impl.nextTask, operation, bytes }]
        pendingTasks := impl.pendingTasks + 1 }, .ok impl.nextTask)

/-- `query`, `exportRecords`, `exportRows` and `importRecords`; only the second takes part in
the limit on bytes. -/
def request (config : Config) (operation : Operation) (exportBytes : ℕ) (impl : Impl) :
    Impl × Except String ℕ :=
  if impl.stopping = true ∨ 16 ≤ impl.pendingQueries ∨ 1024 ≤ impl.pendingTasks ∨
      (config.queueBytes : ℤ) - impl.pendingExportBytes < exportBytes then
    (impl, .error "查询队列已满或正在关闭")
  else
    ({ impl with
        nextTask := impl.nextTask + 1
        reads := impl.reads ++ [{ task := impl.nextTask, operation, exportBytes }]
        pendingExportBytes := impl.pendingExportBytes + exportBytes
        pendingTasks := impl.pendingTasks + 1
        pendingQueries := impl.pendingQueries + 1 }, .ok impl.nextTask)

/-- The declared schemas with their numbers, by dataset. -/
structure Declarations where
  protocol : Text
  schemas : List (Text × Schema × UInt64)

/-- Sizes in memory, which the compiler and its library decide: `sizeof(Command)` with the
capacity of a list of records, and the capacities of a record. -/
structure QueueSizes where
  command : List Record → ℕ
  record : Record → ℕ

/-- Checks the records of a publication and gives them the numbers of their schemas. -/
def checkRecords (declarations : Declarations) : List Record → Except String (List Record)
  | [] => .ok []
  | record :: records =>
    match declarations.schemas.lookup record.dataset with
    | none => .error "协议或数据集未声明"
    | some (schema, version) => do
      invalid (record.protocol ≠ declarations.protocol) "协议或数据集未声明"
      validateRecord schema record
      return { record with schemaVersion := version } :: (← checkRecords declarations records)

/-- Adds the sizes of records, unless they exceed the queue. -/
def addSizes (config : Config) (sizes : QueueSizes) : ℕ → List Record → Option ℕ
  | bytes, [] => some bytes
  | bytes, record :: records =>
    if config.queueBytes < sizes.record record ∨
        config.queueBytes - sizes.record record < bytes then none
    else addSizes config sizes (bytes + sizes.record record) records

def received (records : List Record) (impl : Impl) : Impl :=
  { impl with status := { impl.status with received := impl.status.received + records.length } }

/-- `publish` once the records are counted. -/
def publishReceived (config : Config) (bytes : ℕ) (records : List Record) (impl : Impl) :
    Impl × Except String Unit :=
  if impl.status.recording = false ∨ impl.status.faulted = true ∨ impl.stopping = true then
    if impl.status.faulted then
      (markInterrupted records
        { impl with status := { impl.status with failed := impl.status.failed + records.length } },
        .error "记录未启动或已故障")
    else (impl, .error "记录未启动或已故障")
  else if (config.queueBytes : ℤ) - impl.status.queueBytes < bytes ∨ 65536 ≤ impl.writes.length then
    (refuse records "记录队列已满" impl, .error "记录队列已满")
  else
    ({ impl with
        status :=
          { impl.status with
            queueBytes := impl.status.queueBytes + bytes
            queued := impl.status.queued + records.length }
        queuedRows := impl.queuedRows + records.length
        writes := impl.writes ++ [{ operation := .publish, bytes, records }] }, .ok ())

/-- `publish` of checked records of `bytes` bytes. -/
def publishChecked (config : Config) (bytes : ℕ) (records : List Record) (impl : Impl) :
    Impl × Except String Unit :=
  publishReceived config bytes records (received records impl)

def publish (config : Config) (sizes : QueueSizes) (declarations : Declarations)
    (records : List Record) (impl : Impl) : Impl × Except String Unit :=
  match checkRecords declarations records with
  | .error message => (impl, .error message)
  | .ok checked =>
    match addSizes config sizes (sizes.command records) checked with
    | none =>
      (refuse checked "发布批次超过记录队列容量" (received checked impl),
        .error "发布批次超过记录队列容量")
    | some bytes => publishChecked config bytes checked impl

def isRead (operation : Operation) : Bool :=
  operation ∈ [.query, .exportRecords, .importRecords]

def poll (impl : Impl) : Impl × List Completion :=
  ({ impl with
      completions := []
      pendingTasks := impl.pendingTasks - impl.completions.length
      pendingQueries :=
        impl.pendingQueries - (impl.completions.filter fun c => isRead c.operation).length },
    impl.completions)

/-! ### The writer -/

/-- Publications that follow the ones already taken with `rows` rows. -/
def takePublications (batchRows : ℕ) : ℕ → List Command → List Command × List Command
  | _, [] => ([], [])
  | rows, command :: writes =>
    if command.operation = .publish ∧ rows < batchRows then
      let (batch, rest) := takePublications batchRows (rows + command.records.length) writes
      (command :: batch, rest)
    else ([], command :: writes)

/-- The next batch: publications together, any other command by itself. -/
def takeBatch (batchRows : ℕ) (front : Command) (writes : List Command) :
    List Command × List Command :=
  if front.operation = .publish then
    let (batch, rest) := takePublications batchRows front.records.length writes
    (front :: batch, rest)
  else ([front], writes)

/-- Fails everything that is queued, and ends the writer. -/
def abandon (failure : Failure) (impl : Impl) : Impl :=
  let interrupted := markInterrupted (recordsOf impl.writes)
    { impl with
      status :=
        { impl.status with
          faulted := true
          recording := false
          error := failure.message
          failed := impl.status.failed + rowCount impl.writes
          queueBytes := 0 } }
  { interrupted with
    faultMetadataDirty := impl.faultMetadataDirty || !impl.writes.isEmpty
    completions := impl.completions ++
      ((impl.writes.filter fun command => command.operation ≠ .publish).map fun command =>
        { task := command.task
          operation := command.operation
          ok := false
          error := failure.message })
    writes := []
    queuedRows := 0
    writing := false
    stopping := true
    writer := .ended }

def publishing (batch : List Command) : Bool := batch.any fun command => command.operation = .publish

/-- Uncounts a batch, and counts what became of it. -/
def settle (batch : List Command) (error : String) (impl : Impl) : Impl :=
  let uncounted :=
    { impl with status := { impl.status with queueBytes := impl.status.queueBytes - byteCount batch } }
  let counted :=
    if error = "" then
      { uncounted with
        status :=
          { uncounted.status with
            committed := uncounted.status.committed + rowCount batch
            lastCommittedId :=
              if publishing batch = true ∧ rowCount batch ≠ 0 then impl.volumes.lastId
              else impl.status.lastCommittedId
            lastCommittedTimeUs :=
              if publishing batch = true ∧ rowCount batch ≠ 0 then impl.volumes.lastReceivedTimeUs
              else impl.status.lastCommittedTimeUs } }
    else if batch.any fun command => command.operation ∈ [.publish, .start, .stop] then
      markInterrupted (recordsOf batch)
        { uncounted with
          status :=
            { uncounted.status with
              failed := uncounted.status.failed + rowCount batch
              faulted := true
              recording := false
              error := error } }
    else uncounted
  { counted with
    completions := counted.completions ++
      ((batch.filter fun command => command.operation ≠ .publish).map fun command =>
        { task := command.task, operation := command.operation, ok := error = "", error })
    writer :=
      if publishing batch = true ∧ error = "" then
        if rowCount batch = 0 then .maintaining else .committed
      else .persisting .finish }

def continueWith (next : AfterPersist) (impl : Impl) : Impl :=
  match next with
  | .maintain active => { impl with writer := if active then .idle else .waiting }
  | .session command => { impl with writer := .session command }
  | .finish => { impl with writer := .finishing }

/-- The critical section of `persistFault`. -/
def persistFault (next : AfterPersist) (impl : Impl) : Impl :=
  if impl.faultMetadataDirty then
    if impl.status.faulted then { impl with faultMetadataDirty := false, writer := .faulting next }
    else continueWith next { impl with faultMetadataDirty := false }
  else continueWith next impl

/-- The start or the stop of a session. -/
def switchRecording (command : Command) (impl : Impl) : Impl :=
  if command.operation = .start then
    { impl with status := { impl.status with recording := true, faulted := false, error := "" } }
  else { impl with status := { impl.status with recording := false } }

/-- One phase of the writer, with the outcome of what it calls. -/
def writerTurn (config : Config) (outcome : Option Failure) (impl : Impl) : Impl :=
  match impl.writer with
  | .opening =>
    match outcome with
    | none => { impl with writer := .waiting }
    | some failure => abandon failure impl
  | .waiting =>
    match impl.writes with
    | [] =>
      if impl.stopping then { impl with writer := .ended }
      else { impl with writer := .persisting (.maintain impl.status.recording) }
    | front :: writes =>
      let (batch, rest) := takeBatch config.batchRows front writes
      { impl with
        queuedRows := impl.queuedRows - rowCount batch
        writes := rest
        writing := true
        writer := .taken batch }
  | .taken batch =>
    match batch with
    | [] => impl
    | front :: _ =>
      if front.operation = .publish then
        -- after a fault the batch fails with the error of the fault
        if impl.status.faulted then { impl with writer := .settling batch impl.status.error }
        else { impl with writer := .appending batch }
      else { impl with writer := .executing front }
  | .appending batch =>
    match outcome with
    | none =>
      { impl with
        volumes := impl.volumes.append (recordsOf batch)
        writer := .settling batch "" }
    | some failure => { impl with writer := .settling batch failure.message }
  | .executing command =>
    match command.operation, outcome with
    | .start, none => { impl with writer := .persisting (.session command) }
    | .stop, _ => { impl with writer := .persisting (.session command) }
    | .flush, _ => { impl with writer := .settling [command] "" }
    | _, none => { impl with writer := .settling [command] "" }
    | _, some failure => { impl with writer := .settling [command] failure.message }
  | .session command =>
    match outcome with
    | none => { switchRecording command impl with writer := .settling [command] "" }
    | some failure => { impl with writer := .settling [command] failure.message }
  | .settling batch error => settle batch error impl
  | .committed => { maintain outcome impl with writer := .maintaining }
  | .maintaining => { maintain outcome impl with writer := .persisting .finish }
  | .persisting next => persistFault next impl
  | .faulting next =>
    match outcome with
    | none => continueWith next impl
    | some failure =>
      continueWith next
        { impl with
          status :=
            { impl.status with
              error := "record fault metadata commit failed: " ++ failure.message } }
  | .idle => { maintain outcome impl with writer := .waiting }
  | .finishing => { impl with writing := false, writer := .waiting }
  | .ended => impl

/-! ### The reader -/

def readerTurn (outcome : Option Failure) (impl : Impl) : Impl :=
  match impl.reader with
  | .waiting =>
    match impl.reads with
    | [] => if impl.stopping then { impl with reader := .ended } else impl
    | command :: reads => { impl with reads, reading := true, reader := .running command }
  | .running command =>
    { impl with
      completions := impl.completions ++
        [{ task := command.task
           operation := command.operation
           ok := outcome.isNone
           error := (outcome.map (·.message)).getD "" }]
      pendingExportBytes := impl.pendingExportBytes - command.exportBytes
      reading := false
      reader := .waiting }
  | .ended => impl

/-! ### Runs -/

/-- A step of a caller or of one of the two threads. -/
inductive Event where
  | publish (records : List Record)
  | enqueue (operation : Operation) (bytes : ℕ)
      (allowed : operation ∈ [.start, .stop, .flush, .set, .delete])
  | request (operation : Operation) (exportBytes : ℕ)
      (allowed : operation ∈ [.query, .exportRecords, .importRecords])
  | poll
  | close
  | writer (outcome : Option Failure)
  | reader (outcome : Option Failure)

/-- What became of a batch of publications, and the starts that were executed. -/
inductive Entry where
  | committed (batch : List Command)
  | failed (batch : List Command)
  | started

/-- The store with the history of its calls. -/
structure System where
  store : Impl
  /-- the publications that were accepted -/
  accepted : List Command := []
  /-- the other tasks that were accepted -/
  tasks : List (ℕ × Operation) := []
  /-- what `poll` has returned -/
  returned : List Completion := []
  log : List Entry := []

def publications (commands : List Command) : List Command :=
  commands.filter fun command => command.operation = .publish

/-- What a turn of the writer decides. -/
def decided (outcome : Option Failure) (impl : Impl) : List Entry :=
  match impl.writer with
  | .opening => if outcome.isSome then [.failed (publications impl.writes)] else []
  | .session command =>
    if command.operation = .start ∧ outcome.isNone then [.started] else []
  | .settling batch error =>
    if publishing batch then
      if error = "" then [.committed batch] else [.failed batch]
    else []
  | _ => []

def System.step (config : Config) (sizes : QueueSizes) (declarations : Declarations)
    (s : System) : Event → System
  | .publish records =>
    let (store, _) := publish config sizes declarations records s.store
    { s with store, accepted := s.accepted ++ store.writes.drop s.store.writes.length }
  | .enqueue operation bytes _ =>
    match enqueue config operation bytes s.store with
    | (store, .ok task) => { s with store, tasks := s.tasks ++ [(task, operation)] }
    | (store, .error _) => { s with store }
  | .request operation exportBytes _ =>
    match request config operation exportBytes s.store with
    | (store, .ok task) => { s with store, tasks := s.tasks ++ [(task, operation)] }
    | (store, .error _) => { s with store }
  | .poll =>
    let (store, completions) := poll s.store
    { s with store, returned := s.returned ++ completions }
  | .close => { s with store := { s.store with stopping := true } }
  | .writer outcome =>
    { s with store := writerTurn config outcome s.store, log := s.log ++ decided outcome s.store }
  | .reader outcome => { s with store := readerTurn outcome s.store }

/-- A store that has been opened on some live records, before its writer runs. -/
def System.opened (recording : Bool) (volumes : LiveRecords) : System where
  store :=
    { status :=
        { recording := recording
          lastCommittedId := volumes.lastId
          lastCommittedTimeUs := volumes.lastReceivedTimeUs }
      volumes := volumes }

def System.run (config : Config) (sizes : QueueSizes) (declarations : Declarations)
    (s : System) (events : List Event) : System :=
  events.foldl (System.step config sizes declarations) s

end ProtoScope.Storage.Store
