/-
Rows of comma-separated values.

The reader is a state machine over the bytes of a stream.  A byte-order mark in front of the
first row is dropped; bytes that only begin like one are given back before the stream.
Streams neither fail nor are canceled here.
-/
import ProtoScope.Data.Model

namespace ProtoScope.Data

def comma : UInt8 := 44
def quote : UInt8 := 34
def lineFeed : UInt8 := 10
def carriageReturn : UInt8 := 13
def hash : UInt8 := 35

def byteOrderMark : List UInt8 := [0xEF, 0xBB, 0xBF]

/-! ### Writing -/

/-- The characters of a quoted value, each quote twice. -/
def doubleQuotes : List UInt8 → List UInt8
  | [] => []
  | ch :: value => if ch = quote then quote :: ch :: doubleQuotes value else ch :: doubleQuotes value

def csvEscape (value : Text) : List UInt8 :=
  if value.any (fun ch => ch ∈ [comma, quote, lineFeed, carriageReturn, hash]) then
    quote :: (doubleQuotes value ++ [quote])
  else value

/-- The limit on the bytes of a row. -/
def rowLimit : ℕ := 32 * 1024 * 1024

def checkFieldSizes : ℕ → List Text → Except String Unit
  | _, [] => .ok ()
  | bytes, field :: fields => do
    invalid (rowLimit - bytes < field.length) "CSV row byte limit exceeded"
    checkFieldSizes (bytes + field.length) fields

/-- The fields of a row after the first, each with the comma before it; `bytes` is the length
of the row so far, the end of its line included. -/
def writeFields : ℕ → List Text → Except String (List UInt8)
  | _, [] => .ok []
  | bytes, field :: fields => do
    let escaped := csvEscape field
    invalid (rowLimit - bytes < escaped.length + 1) "CSV encoded row exceeds limit"
    let rest ← writeFields (bytes + (escaped.length + 1)) fields
    return comma :: (escaped ++ rest)

def writeCsvRow (fields : List Text) : Except String (List UInt8) := do
  invalid (4096 < fields.length) "CSV column limit exceeded"
  checkFieldSizes 0 fields
  match fields with
  | [] => return [lineFeed]
  | field :: fields =>
    let escaped := csvEscape field
    invalid (rowLimit - 1 < escaped.length) "CSV encoded row exceeds limit"
    let rest ← writeFields (1 + escaped.length) fields
    return escaped ++ rest ++ [lineFeed]

/-! ### Reading -/

/-- The reader; `held` is what it holds back of its prefix and `stream` what is still in the
stream. -/
structure CsvRowReader where
  held : List UInt8 := []
  stream : List UInt8
  maxBytes : ℕ := rowLimit
  maxFields : ℕ := 4096
  failed : Bool := false

namespace CsvRowReader

/-- A reader at the beginning of a stream, with the limits of the declaration. -/
def construct (stream : List UInt8) : CsvRowReader :=
  if stream.head? = some 0xEF then
    if stream.take 3 = byteOrderMark then { stream := stream.drop 3 }
    else { held := stream.take 3, stream := stream.drop 3 }
  else { stream := stream }

/-- The constructor, with the limits of the caller. -/
def constructWithin (maxBytes maxFields : ℕ) (stream : List UInt8) : Except String CsvRowReader := do
  invalid (maxBytes = 0 ∨ maxFields = 0) "invalid CSV limits"
  return { construct stream with maxBytes := maxBytes, maxFields := maxFields }

inductive State where
  | start
  | unquoted
  | quoted
  | closed
deriving DecidableEq

/-- The next character, from what is held back or from the stream. -/
def get (reader : CsvRowReader) : Option (UInt8 × CsvRowReader) :=
  match reader.held, reader.stream with
  | ch :: held, _ => some (ch, { reader with held := held })
  | [], ch :: stream => some (ch, { reader with stream := stream })
  | [], [] => none

/-- Drops the line feed of a line that ends in two characters. -/
def skipLineFeed (reader : CsvRowReader) : CsvRowReader :=
  match reader.stream with
  | ch :: stream => if ch = lineFeed then { reader with stream := stream } else reader
  | [] => reader

def remaining (reader : CsvRowReader) : ℕ := reader.held.length + reader.stream.length

theorem get_remaining {reader after : CsvRowReader} {ch : UInt8}
    (h : reader.get = some (ch, after)) : after.remaining < reader.remaining := by
  obtain ⟨held, stream, maxBytes, maxFields, failed⟩ := reader
  cases held with
  | nil =>
    cases stream with
    | nil => cases h
    | cons ch stream =>
      cases h
      simp [remaining]
  | cons ch held =>
    cases h
    simp only [remaining, List.length_cons]
    omega

/-- The row as far as it has been read. -/
structure Row where
  state : State := .start
  fields : List Text := []
  value : Text := []
  bytes : ℕ := 0

def Row.finish (row : Row) (maxFields : ℕ) : Except String Row := do
  invalid (maxFields ≤ row.fields.length) "CSV column limit exceeded"
  return { row with fields := row.fields ++ [row.value], value := [], state := .start }

/-- The loop of `next`: `none` where the stream ends before a row begins. -/
def readRow (reader : CsvRowReader) (row : Row) :
    Except String (Option (List Text) × CsvRowReader) :=
  match _h : reader.get with
  | none =>
    if row.state = .quoted then .error "CSV unclosed quote"
    else if row.bytes = 0 then .ok (none, reader)
    else do
      let row ← row.finish reader.maxFields
      return (some row.fields, reader)
  | some (ch, after) =>
    let row := { row with bytes := row.bytes + 1 }
    if reader.maxBytes < row.bytes then .error "CSV row byte limit exceeded"
    else if row.state = .quoted then
      if ch = quote then readRow after { row with state := .closed }
      else readRow after { row with value := row.value ++ [ch] }
    else if row.state = .closed ∧ ch = quote then
      readRow after { row with value := row.value ++ [ch], state := .quoted }
    else if ch = comma then do
      let row ← row.finish reader.maxFields
      readRow after row
    else if ch = lineFeed ∨ ch = carriageReturn then do
      let row ← row.finish reader.maxFields
      return (some row.fields, if ch = carriageReturn then after.skipLineFeed else after)
    -- a quote only opens a field, and a closed one is followed by a quote or a separator
    else if row.state = .closed ∨ ch = quote ∧ row.state ≠ .start then
      .error "CSV misplaced quote"
    else if ch = quote then readRow after { row with state := .quoted }
    else readRow after { row with value := row.value ++ [ch], state := .unquoted }
termination_by reader.remaining
decreasing_by all_goals exact get_remaining _h

def next (reader : CsvRowReader) : Except String (Option (List Text)) × CsvRowReader :=
  if reader.failed then (.error "CSV reader has failed", reader)
  else
    match reader.readRow {} with
    | .ok (row, reader) => (.ok row, reader)
    | .error message => (.error message, { reader with failed := true })

end CsvRowReader

end ProtoScope.Data
