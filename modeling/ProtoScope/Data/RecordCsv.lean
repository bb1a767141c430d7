/-
Records as comma-separated values: a version row, a row for each schema, a row for each
record and a last row with their number.  The cells of a record's values carry a tag.
-/
import ProtoScope.Data.Csv
import ProtoScope.Library.Decimal

namespace ProtoScope.Data

open ProtoScope.Library

/-- The library functions between doubles and text: `std::to_chars` in general format with
seventeen digits, and `std::from_chars` where it takes the whole text.  A finite number is
read back from its text. -/
structure DoubleText where
  toChars : Float → Text
  fromChars : Text → Option Float
  fromChars_toChars : ∀ x : Float, x.isFinite = true → fromChars (toChars x) = some x

namespace RecordCsv

/-! ### Numbers -/

def minus : UInt8 := 45

/-- `std::to_string` of a signed number -/
def signedText (value : Int64) : Text :=
  if value < 0 then minus :: Decimal.render value.toInt.natAbs
  else Decimal.render value.toInt.natAbs

/-- `std::to_string` of an unsigned number -/
def unsignedText (value : UInt64) : Text := Decimal.render value.toNat

/-- The value `std::from_chars` finds, if the whole text is a number in range. -/
def fromCharsSigned (text : Text) : Option ℤ :=
  match text with
  | [] => none
  | ch :: rest =>
    if ch = minus then
      (Decimal.parse rest).bind fun n => if n ≤ 9223372036854775808 then some (-n) else none
    else (Decimal.parse text).bind fun n => if n ≤ 9223372036854775807 then some n else none

/-- `number<std::int64_t>` -/
def signedNumber (text : Text) : Except String Int64 :=
  match fromCharsSigned text with
  | some value => .ok (Int64.ofInt value)
  | none => .error "invalid CSV number"

/-- `number<std::uint64_t>` -/
def unsignedNumber (text : Text) : Except String UInt64 :=
  match Decimal.parse text with
  | some n => if n < 18446744073709551616 then .ok (UInt64.ofNat n) else .error "invalid CSV number"
  | none => .error "invalid CSV number"

/-- A number, or an empty cell for none. -/
def optionalNumber (text : Text) : Except String (Option Int64) :=
  if text = [] then .ok none else some <$> signedNumber text

/-- `number<double>` -/
def doubleNumber (doubles : DoubleText) (text : Text) : Except String Float :=
  match doubles.fromChars text with
  | some value => do
    invalid (value.isFinite = false) "non-finite CSV number"
    return value
  | none => .error "invalid CSV number"

def version (text : Text) : Except String UInt64 := do
  let value ← signedNumber text
  invalid (value ≤ 0) "CSV schema version must be positive"
  return value.toUInt64

/-! ### Types and cells -/

def typeName : FieldType → Text
  | .int64 => text "int64"
  | .double => text "double"
  | .bool => text "bool"
  | .string => text "string"
  | .bytes => text "bytes"

def fieldType (name : Text) : Except String FieldType :=
  match [FieldType.int64, .double, .bool, .string, .bytes].find? fun type => typeName type = name with
  | some type => .ok type
  | none => .error "unknown CSV field type"

/-- The digit at an index of `"0123456789ABCDEF"`. -/
def hexDigit (nibble : UInt8) : UInt8 := if nibble < 10 then 48 + nibble else 55 + nibble

def hexText : List UInt8 → Text
  | [] => []
  | byte :: bytes => hexDigit (byte >>> 4) :: hexDigit (byte &&& 15) :: hexText bytes

def nibble (ch : UInt8) : Except String UInt8 :=
  if 48 ≤ ch ∧ ch ≤ 57 then .ok (ch - 48)
  else if 97 ≤ ch ∧ ch ≤ 102 then .ok (ch - 97 + 10)
  else if 65 ≤ ch ∧ ch ≤ 70 then .ok (ch - 65 + 10)
  else .error "invalid CSV HEX digit"

/-- The loop over pairs of digits. -/
def parseHex : Text → Except String (List UInt8)
  | high :: low :: rest => do
    let high ← nibble high
    let low ← nibble low
    let bytes ← parseHex rest
    return (high * 16 + low) :: bytes
  | _ => .ok []

def parseScalar (doubles : DoubleText) (type : FieldType) (text : Text) : Except String Value :=
  match type with
  | .int64 => .int64 <$> signedNumber text
  | .double => .double <$> doubleNumber doubles text
  | .bool =>
    if text = Data.text "true" then .ok (.bool true)
    else if text = Data.text "false" then .ok (.bool false)
    else .error "CSV bool requires true/false"
  | .string => .ok (.string text)
  | .bytes => do
    invalid (text.length % 2 ≠ 0) "odd CSV HEX length"
    let bytes ← parseHex text
    return .bytes bytes

def scalarText (doubles : DoubleText) : Value → Except String Text
  | .null => .ok (text "n:")
  | .int64 value => .ok (text "i:" ++ signedText value)
  | .double value => .ok (text "d:" ++ doubles.toChars value)
  | .bool value => .ok (if value then text "b:true" else text "b:false")
  | .string value => .ok (text "s:" ++ value)
  | .bytes value => do
    invalid (16 * 1024 * 1024 < value.length) "CSV bytes exceed row limit"
    return text "x:" ++ hexText value
  | .array _ => .error "CSV requires scalar fields"
  | .object _ => .error "CSV requires scalar fields"

/-- The tag of a type: `'i'`, `'d'`, `'b'`, `'s'`, `'x'`. -/
def typeTag : FieldType → UInt8
  | .int64 => 105
  | .double => 100
  | .bool => 98
  | .string => 115
  | .bytes => 120

def typedScalar (doubles : DoubleText) (field : Field) (text : Text) : Except String Value :=
  if text = Data.text "n:" then .ok .null
  else
    match text with
    | tag :: 58 :: rest =>
      if tag = typeTag field.type then parseScalar doubles field.type rest
      else .error "CSV value tag differs from schema"
    | _ => .error "CSV value tag differs from schema"

def stripBom (row : List Text) : List Text :=
  match row with
  | [] => []
  | cell :: cells => (if byteOrderMark.isPrefixOf cell then cell.drop 3 else cell) :: cells

/-! ### Rows -/

def versionRow : List Text := [text "protoscope_csv", text "1"]

def schemaRow (version : UInt64) (schema : Schema) : List Text :=
  text "schema" :: unsignedText version :: schema.dataset ::
    schema.fields.flatMap fun field =>
      [field.name, typeName field.type, if field.nullable then text "true" else text "false"]

def valueTexts (doubles : DoubleText) : List Value → Except String (List Text)
  | [] => .ok []
  | value :: values => do
    let cell ← scalarText doubles value
    let cells ← valueTexts doubles values
    return cell :: cells

def recordRow (doubles : DoubleText) (record : Record) : Except String (List Text) := do
  let cells ← valueTexts doubles record.values
  return text "record" :: record.protocol :: record.dataset :: record.device ::
    signedText record.receivedAtUs :: (record.deviceTimeUs.map signedText).getD [] ::
    unsignedText record.schemaVersion :: cells

/-- The cells of a schema row from its third on, three for each field. -/
def schemaFields : List Text → Except String (List Field)
  | name :: type :: nullable :: cells => do
    invalid (nullable ≠ text "true" ∧ nullable ≠ text "false") "invalid CSV nullable flag"
    let type ← fieldType type
    let fields ← schemaFields cells
    return { name := name, type := type, nullable := nullable = text "true" } :: fields
  | _ => .ok []

def rowValues (doubles : DoubleText) : List Field → List Text → Except String (List Value)
  | field :: fields, cell :: cells => do
    let value ← typedScalar doubles field cell
    let values ← rowValues doubles fields cells
    return value :: values
  | _, _ => .ok []

end RecordCsv

open RecordCsv

/-! ### Writing -/

structure RecordCsvWriter where
  stream : List UInt8
  schemas : Schemas
  count : UInt64 := 0
  closed : Bool := false

namespace RecordCsvWriter

def checkSchemas : ℕ → List (UInt64 × Schema) → Except String Unit
  | _, [] => .ok ()
  | fields, (id, schema) :: schemas => do
    invalid (id = 0 ∨ int64Max < (id.toNat : ℤ)) "invalid CSV schema version"
    validateSchema schema
    invalid (16384 < fields + schema.fields.length) "CSV total schema fields exceeded"
    checkSchemas (fields + schema.fields.length) schemas

def writeSchemas : List (UInt64 × Schema) → Except String (List UInt8)
  | [] => .ok []
  | (id, schema) :: schemas => do
    let row ← writeCsvRow (schemaRow id schema)
    let rows ← writeSchemas schemas
    return row ++ rows

def construct (schemas : Schemas) : Except String RecordCsvWriter := do
  invalid (1024 < schemas.entries.length) "CSV schema count exceeded"
  checkSchemas 0 schemas.entries
  let head ← writeCsvRow versionRow
  let rows ← writeSchemas schemas.entries
  return { stream := head ++ rows, schemas := schemas }

def appendRow (doubles : DoubleText) (sizeofValue : ℕ) (writer : RecordCsvWriter)
    (record : Record) : Except String RecordCsvWriter :=
  match writer.schemas.find record.schemaVersion with
  | none => .error "unknown CSV schema"
  | some schema => do
    validateRecord schema record
    checkMemory sizeofValue "CSV record exceeds memory budget" (32 * 1024 * 1024) record.values
    let row ← recordRow doubles record
    invalid (writer.count = 18446744073709551615) "CSV record count overflow"
    let line ← writeCsvRow row
    return { writer with stream := writer.stream ++ line, count := writer.count + 1 }

/-- A call that throws closes the writer. -/
def append (doubles : DoubleText) (sizeofValue : ℕ) (writer : RecordCsvWriter) (record : Record) :
    Except String Unit × RecordCsvWriter :=
  if writer.closed then (.error "CSV writer closed or failed", writer)
  else
    match writer.appendRow doubles sizeofValue record with
    | .ok writer => (.ok (), writer)
    | .error message => (.error message, { writer with closed := true })

def finish (writer : RecordCsvWriter) : Except String Unit × RecordCsvWriter :=
  if writer.closed then (.error "CSV writer closed or failed", writer)
  else
    match writeCsvRow [text "end", unsignedText writer.count] with
    | .ok line => (.ok (), { writer with stream := writer.stream ++ line, closed := true })
    | .error message => (.error message, { writer with closed := true })

def appendAll (doubles : DoubleText) (sizeofValue : ℕ) :
    RecordCsvWriter → List Record → Except String RecordCsvWriter
  | writer, [] => .ok writer
  | writer, record :: records =>
    match writer.append doubles sizeofValue record with
    | (.ok _, writer) => appendAll doubles sizeofValue writer records
    | (.error message, _) => .error message

/-- The file of some records: one writer, `append` for each record, `finish`. -/
def writeFile (doubles : DoubleText) (sizeofValue : ℕ) (schemas : Schemas)
    (records : List Record) : Except String (List UInt8) := do
  let writer ← construct schemas
  let writer ← writer.appendAll doubles sizeofValue records
  match writer.finish with
  | (.ok _, writer) => return writer.stream
  | (.error message, _) => .error message

end RecordCsvWriter

/-! ### Reading -/

structure RecordCsvReader where
  rows : CsvRowReader
  schemas : Schemas
  pending : Option (List Text)
  count : UInt64 := 0
  finished : Bool := false
  failed : Bool := false

namespace RecordCsvReader

/-- A schema row: the text of its version, and the schema. -/
def parseSchemaRow (row : List Text) : Except String (Text × Schema) :=
  match row with
  | _ :: id :: dataset :: cells => do
    invalid (row.length < 6 ∨ cells.length % 3 ≠ 0) "invalid CSV schema row"
    let fields ← schemaFields cells
    validateSchema { dataset := dataset, fields := fields }
    return (id, { dataset := dataset, fields := fields })
  | _ => .error "invalid CSV schema row"

theorem emplace_length {schemas result : Schemas} {id : UInt64} {schema : Schema}
    (h : schemas.emplace id schema = some result) :
    result.entries.length = schemas.entries.length + 1 := by
  unfold Schemas.emplace at h
  split at h
  · cases h
  · rename_i entries hemplace
    cases h
    rw [(OrderedMap.emplace_perm hemplace).length_eq, List.length_cons]

/-- The rows of schemas, until another row comes. -/
def readSchemas (fields : ℕ) (schemas : Schemas) (rows : CsvRowReader) :
    Except String RecordCsvReader :=
  match rows.next with
  | (.error message, _) => .error message
  | (.ok none, _) => .error "CSV missing end row"
  | (.ok (some row), rows) =>
    if row.head? ≠ some (text "schema") then
      .ok { rows := rows, schemas := schemas, pending := some row }
    else do
      let (id, schema) ← parseSchemaRow row
      if _hmany : 1024 ≤ schemas.entries.length ∨ 16384 < fields + schema.fields.length then
        .error "duplicate or excessive CSV schemas"
      else
        let id ← version id
        match _hemplace : schemas.emplace id schema with
        | none => .error "duplicate or excessive CSV schemas"
        | some more => readSchemas (fields + schema.fields.length) more rows
termination_by 1024 - schemas.entries.length
decreasing_by
  have := emplace_length _hemplace
  omega

def construct (stream : List UInt8) : Except String RecordCsvReader :=
  match (CsvRowReader.construct stream).next with
  | (.error message, _) => .error message
  | (.ok none, _) => .error "unsupported record CSV version"
  | (.ok (some row), rows) => do
    invalid (stripBom row ≠ versionRow) "unsupported record CSV version"
    readSchemas 0 .empty rows

def recordOfRow (doubles : DoubleText) (reader : RecordCsvReader) (row : List Text) :
    Except String Record :=
  match row with
  | kind :: protocol :: dataset :: device :: receivedAtUs :: deviceTimeUs :: id :: cells => do
    invalid (kind ≠ text "record") "invalid CSV record row"
    let id ← version id
    match reader.schemas.find id with
    | none => .error "CSV record columns differ from schema"
    | some schema =>
      invalid (cells.length ≠ schema.fields.length) "CSV record columns differ from schema"
      let receivedAtUs ← signedNumber receivedAtUs
      let deviceTimeUs ← optionalNumber deviceTimeUs
      let values ← rowValues doubles schema.fields cells
      let record : Record :=
        { protocol, dataset, device, receivedAtUs, deviceTimeUs, schemaVersion := id, values }
      validateRecord schema record
      return record
  | _ => .error "invalid CSV record row"

/-- What `next` makes of a row, with `rows` after it. -/
def acceptRow (doubles : DoubleText) (reader : RecordCsvReader) (row : List Text)
    (rows : CsvRowReader) : Except String (Option Record × RecordCsvReader) :=
  if row.head? = some (text "end") then
    match row with
    | [_, count] => do
      let count ← unsignedNumber count
      invalid (count ≠ reader.count) "invalid CSV footer or trailing rows"
      match rows.next with
      | (.error message, _) => .error message
      | (.ok (some _), _) => .error "invalid CSV footer or trailing rows"
      | (.ok none, rows) => .ok (none, { reader with rows := rows, pending := none, finished := true })
    | _ => .error "invalid CSV footer or trailing rows"
  else do
    let record ← recordOfRow doubles reader row
    invalid (reader.count = 18446744073709551615) "CSV record count overflow"
    return (some record, { reader with rows := rows, pending := none, count := reader.count + 1 })

def nextRow (doubles : DoubleText) (reader : RecordCsvReader) :
    Except String (Option Record × RecordCsvReader) :=
  match reader.pending with
  | some row => reader.acceptRow doubles row reader.rows
  | none =>
    match reader.rows.next with
    | (.error message, _) => .error message
    | (.ok none, _) => .error "CSV missing end row"
    | (.ok (some row), rows) => reader.acceptRow doubles row rows

/-- `none` reports that the whole file has been read. -/
def next (doubles : DoubleText) (reader : RecordCsvReader) :
    Except String (Option Record) × RecordCsvReader :=
  if reader.failed then (.error "CSV reader failed", reader)
  else if reader.finished then (.ok none, reader)
  else
    match reader.nextRow doubles with
    | .ok (record, reader) => (.ok record, reader)
    | .error message => (.error message, { reader with failed := true })

end RecordCsvReader

end ProtoScope.Data
