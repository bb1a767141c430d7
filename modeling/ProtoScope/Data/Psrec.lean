/-
Record files: a signature, a block of schemas, a block for each record and a last block
with their number, every block with its sequence number and a checksum.

Streams neither fail nor are canceled here, and a stream is the bytes still to be read.
-/
import ProtoScope.Data.ValueCodec
import ProtoScope.Library.ByteReader

namespace ProtoScope.Data.Psrec

open ProtoScope.Library

def limits : ValueLimits :=
  { maxBytes := 32 * 1024 * 1024, maxDepth := 16, maxNodes := 131072 }

def header : List UInt8 := [80, 83, 82, 69, 67, 13, 10, 0x1A, 1, 0, 0, 0]

def metadataBlock : UInt32 := 1
def recordBlock : UInt32 := 2
def endBlock : UInt32 := 3

/-! ### Checksums and integers -/

/-- The entry of `crcTable` at an index. -/
def crcTable (index : UInt32) : UInt32 :=
  (List.range 8).foldl
    (fun value _ => (value >>> 1) ^^^ (if value &&& 1 ≠ 0 then 0xEDB88320 else 0)) index

def crc (value : UInt32) (bytes : List UInt8) : UInt32 :=
  bytes.foldl
    (fun value byte => crcTable ((value ^^^ byte.toUInt32) &&& 255) ^^^ (value >>> 8)) value

/-- The `size` bytes that `put` fills in. -/
def put : ℕ → UInt64 → List UInt8
  | 0, _ => []
  | size + 1, value => value.toUInt8 :: put size (value >>> 8)

/-- The loop of `get`, with the byte at place `i` next. -/
def getFrom : ℕ → UInt64 → List UInt8 → UInt64
  | _, value, [] => value
  | i, value, byte :: bytes =>
    getFrom (i + 1) (value ||| (byte.toUInt64 <<< UInt64.ofNat (i * 8))) bytes

def get (input : List UInt8) : UInt64 := getFrom 0 0 input

/-! ### Blocks -/

def checksum (head payload : List UInt8) : UInt32 :=
  crc (crc 0xFFFFFFFF head) payload ^^^ 0xFFFFFFFF

def writeBlock (type : UInt32) (sequence : UInt64) (payload : List UInt8) :
    Except String (List UInt8) := do
  invalid (limits.maxBytes.toNat < payload.length) "psrec block exceeds limit"
  let head := put 4 type.toUInt64 ++ put 4 (UInt64.ofNat payload.length) ++ put 8 sequence
  return head ++ payload ++ put 4 (checksum head payload).toUInt64

structure Block where
  type : UInt32
  payload : List UInt8

def read (size : ℕ) : ByteReader String (List UInt8) :=
  .take "psrec truncated or unreadable" size

def readBlock (sequence : UInt64) : ByteReader String Block := do
  let head ← read 16
  let type := get (head.take 4)
  let size := get ((head.drop 4).take 4)
  .ofExcept (invalid (get (head.drop 8) ≠ sequence ∨ limits.maxBytes < size ∨
    type < metadataBlock.toUInt64 ∨ endBlock.toUInt64 < type) "invalid psrec block header")
  let payload ← read size.toNat
  let sum ← read 4
  .ofExcept (invalid (get sum ≠ (checksum head payload).toUInt64) "psrec CRC32 mismatch")
  return { type := type.toUInt32, payload := payload }

/-! ### The block of schemas -/

/-- The entries of the block, while schemas remain. -/
def metadataEntries : ℕ → ℕ → List (UInt64 × Schema) → Except String (List Value)
  | _, _, [] => .ok []
  | budget, fields, (version, schema) :: schemas => do
    invalid (version = 0 ∨ int64Max < (version.toNat : ℤ)) "invalid psrec schema version"
    invalid (16384 < fields + schema.fields.length) "psrec total schema fields exceed limit"
    let value ← schemaValue schema
    let size := (← encodeValue value limits).length
    invalid (budget < size) "psrec metadata exceeds limit"
    let values ← metadataEntries (budget - size) (fields + schema.fields.length) schemas
    return .array [.int64 version.toInt64, value] :: values

def metadata (schemas : Schemas) : Except String (List UInt8) := do
  invalid (1024 < schemas.entries.length) "psrec schema count exceeds limit"
  let result ← metadataEntries limits.maxBytes.toNat 0 schemas.entries
  encodeValue (.array result) limits

/-- What `decodeValue` throws is a message. -/
def decoded (bytes : List UInt8) : Except String Value :=
  match decodeValue bytes limits with
  | .ok value => .ok value
  | .error (.refused message) => .error message
  | .error .outOfBounds => .error "out of bounds"

def parseEntry (entry : Value) : Except String (Int64 × Value) :=
  match entry with
  | .array [.int64 version, schema] =>
    if version ≤ 0 then .error "invalid or duplicate psrec schema version"
    else .ok (version, schema)
  | .array [_, _] => .error "invalid or duplicate psrec schema version"
  | _ => .error "invalid psrec schema entry"

def parseEntries : ℕ → Schemas → List Value → Except String Schemas
  | _, result, [] => .ok result
  | fields, result, entry :: entries => do
    let (version, value) ← parseEntry entry
    let schema ← schemaFromValue value
    match result.emplace version.toUInt64 schema with
    | none => .error "invalid or duplicate psrec schema version"
    | some result =>
      invalid (16384 < fields + schema.fields.length) "psrec total schema fields exceed limit"
      parseEntries (fields + schema.fields.length) result entries

def parseMetadata (payload : List UInt8) : Except String Schemas := do
  match ← decoded payload with
  | .array entries =>
    invalid (1024 < entries.length) "invalid psrec schemas"
    parseEntries 0 .empty entries
  | _ => .error "invalid psrec schemas"

end Psrec

/-! ### Writing -/

/-- The writer and what it has written to its stream. -/
structure PsrecWriter where
  stream : List UInt8
  schemas : Schemas
  count : UInt64 := 0
  finished : Bool := false
  failed : Bool := false

namespace PsrecWriter

open Psrec

def construct (schemas : Schemas) : Except String PsrecWriter := do
  let payload ← metadata schemas
  let block ← writeBlock metadataBlock 0 payload
  return { stream := header ++ block, schemas := schemas }

def appendBlock (sizeofValue : ℕ) (writer : PsrecWriter) (record : Record) :
    Except String PsrecWriter :=
  match writer.schemas.find record.schemaVersion with
  | none => .error "unknown psrec record schema"
  | some schema => do
    validateRecord schema record
    checkMemory sizeofValue "psrec record exceeds limit" limits.maxBytes.toNat record.values
    invalid (writer.count = 18446744073709551614) "psrec record count overflow"
    let payload ← encodeValue (← recordValue record) limits
    let block ← writeBlock recordBlock (writer.count + 1) payload
    return { writer with stream := writer.stream ++ block, count := writer.count + 1 }

def finishBlock (writer : PsrecWriter) : Except String PsrecWriter := do
  let block ← writeBlock endBlock (writer.count + 1) (put 8 writer.count)
  return { writer with stream := writer.stream ++ block, finished := true }

/-- A call of the writer: one that throws leaves it failed, and a failed or finished writer
throws. -/
def call (writer : PsrecWriter) (body : PsrecWriter → Except String PsrecWriter) :
    Except String Unit × PsrecWriter :=
  if writer.failed ∨ writer.finished then
    (.error "psrec writer is closed or failed", writer)
  else
    match body writer with
    | .ok writer => (.ok (), writer)
    | .error message => (.error message, { writer with failed := true })

def append (sizeofValue : ℕ) (writer : PsrecWriter) (record : Record) :
    Except String Unit × PsrecWriter :=
  writer.call (·.appendBlock sizeofValue record)

def finish (writer : PsrecWriter) : Except String Unit × PsrecWriter :=
  writer.call finishBlock

end PsrecWriter

/-! ### Reading -/

/-- The reader; its stream is what it has not read yet. -/
structure PsrecReader where
  stream : List UInt8
  schemas : Schemas
  count : UInt64 := 0
  finished : Bool := false
  failed : Bool := false

namespace PsrecReader

open Psrec

def construct (bytes : List UInt8) : Except String PsrecReader := do
  let (signature, rest) ← read header.length bytes
  invalid (signature ≠ header) "unsupported psrec signature or version"
  let (block, rest) ← readBlock 0 rest
  invalid (block.type ≠ metadataBlock) "psrec metadata missing"
  let schemas ← parseMetadata block.payload
  return { stream := rest, schemas := schemas }

/-- What `next` makes of a block that leaves `rest` in the stream. -/
def accept (reader : PsrecReader) (block : Block) (rest : List UInt8) :
    Except String (Option Record × PsrecReader) :=
  if block.type = endBlock then do
    -- a file cut at the border of two blocks must not pass for a complete one
    invalid (block.payload.length ≠ 8 ∨ get block.payload ≠ reader.count ∨ rest ≠ [])
      "invalid psrec footer or trailing data"
    return (none, { reader with stream := rest, finished := true })
  else do
    invalid (block.type ≠ recordBlock) "unexpected psrec metadata block"
    let record ← recordFromValue (← decoded block.payload)
    match reader.schemas.find record.schemaVersion with
    | none => .error "unknown psrec record schema"
    | some schema =>
      validateRecord schema record
      invalid (reader.count = 18446744073709551614) "psrec record count overflow"
      return (some record, { reader with stream := rest, count := reader.count + 1 })

def nextBlock (reader : PsrecReader) : Except String (Option Record × PsrecReader) := do
  let (block, rest) ← readBlock (reader.count + 1) reader.stream
  reader.accept block rest

/-- `none` reports that the whole file has been read. -/
def next (reader : PsrecReader) : Except String (Option Record) × PsrecReader :=
  if reader.failed then (.error "psrec reader has failed", reader)
  else if reader.finished then (.ok none, reader)
  else
    match reader.nextBlock with
    | .ok (record, reader) => (.ok record, reader)
    | .error message => (.error message, { reader with failed := true })

end PsrecReader

/-! ### A whole file -/

namespace PsrecWriter

def appendAll (sizeofValue : ℕ) : PsrecWriter → List Record → Except String PsrecWriter
  | writer, [] => .ok writer
  | writer, record :: records =>
    match writer.append sizeofValue record with
    | (.ok _, writer) => appendAll sizeofValue writer records
    | (.error message, _) => .error message

/-- The file of some records: one writer, `append` for each record, `finish`. -/
def writeFile (sizeofValue : ℕ) (schemas : Schemas) (records : List Record) :
    Except String (List UInt8) := do
  let writer ← construct schemas
  let writer ← writer.appendAll sizeofValue records
  match writer.finish with
  | (.ok _, writer) => return writer.stream
  | (.error message, _) => .error message

end PsrecWriter

namespace PsrecReader

open Psrec ProtoScope.Library

theorem readBlock_length {sequence : UInt64} {input rest : List UInt8} {block : Block}
    (h : readBlock sequence input = .ok (block, rest)) : rest.length < input.length := by
  unfold readBlock Psrec.read at h
  obtain ⟨head, afterHead, hhead, h⟩ := ByteReader.bind_eq_ok.mp h
  obtain ⟨_, afterCheck, hcheck, h⟩ := ByteReader.bind_eq_ok.mp h
  obtain ⟨payload, afterPayload, hpayload, h⟩ := ByteReader.bind_eq_ok.mp h
  obtain ⟨sum, afterSum, hsum, h⟩ := ByteReader.bind_eq_ok.mp h
  obtain ⟨_, afterCrc, hcrc, h⟩ := ByteReader.bind_eq_ok.mp h
  cases h
  obtain ⟨hheadLength, rfl⟩ := ByteReader.take_eq_ok hhead
  obtain ⟨-, rfl⟩ := ByteReader.ofExcept_eq_ok.mp hcheck
  obtain ⟨-, rfl⟩ := ByteReader.take_eq_ok hpayload
  obtain ⟨-, rfl⟩ := ByteReader.take_eq_ok hsum
  obtain ⟨-, rfl⟩ := ByteReader.ofExcept_eq_ok.mp hcrc
  simp only [List.length_append]
  omega

theorem accept_eq_some {reader after : PsrecReader} {block : Block} {rest : List UInt8}
    {record : Record} (h : reader.accept block rest = .ok (some record, after)) :
    after = { reader with stream := rest, count := reader.count + 1 } := by
  unfold accept at h
  split at h
  · obtain ⟨_, h⟩ := invalid_of_ok h
    cases h
  · obtain ⟨_, h⟩ := invalid_of_ok h
    obtain ⟨value, -, h⟩ := bind_eq_ok.mp h
    obtain ⟨record, -, h⟩ := bind_eq_ok.mp h
    split at h
    · cases h
    · obtain ⟨_, -, h⟩ := bind_eq_ok.mp h
      obtain ⟨_, h⟩ := invalid_of_ok h
      cases h
      rfl

/-- A call that returns a record has read a block and is ready for the next. -/
theorem next_eq_some {reader after : PsrecReader} {record : Record}
    (h : reader.next = (.ok (some record), after)) :
    reader.failed = false ∧ reader.finished = false ∧
      ∃ block rest, readBlock (reader.count + 1) reader.stream = .ok (block, rest) ∧
        reader.accept block rest = .ok (some record, after) := by
  unfold next at h
  split_ifs at h with hfailed hfinished
  · cases h
  · cases h
  split at h
  · rename_i result last hblock
    cases h
    obtain ⟨⟨block, rest⟩, hread, haccept⟩ := bind_eq_ok.mp hblock
    exact ⟨by simpa using hfailed, by simpa using hfinished, block, rest, hread, haccept⟩
  · cases h

theorem next_length {reader after : PsrecReader} {record : Record}
    (h : reader.next = (.ok (some record), after)) :
    after.stream.length < reader.stream.length := by
  obtain ⟨-, -, block, rest, hread, haccept⟩ := next_eq_some h
  rw [accept_eq_some haccept]
  exact readBlock_length hread

/-- The records up to the report that the file is complete. -/
def drain (reader : PsrecReader) : Except String (List Record) :=
  match _h : reader.next with
  | (.error message, _) => .error message
  | (.ok none, _) => .ok []
  | (.ok (some record), after) => do
    let records ← drain after
    return record :: records
termination_by reader.stream.length
decreasing_by exact next_length _h

/-- Reads a whole file: the schemas, then the records until the report of completion. -/
def readFile (bytes : List UInt8) : Except String (Schemas × List Record) := do
  let reader ← construct bytes
  let records ← reader.drain
  return (reader.schemas, records)

end PsrecReader

end ProtoScope.Data
