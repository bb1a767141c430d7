/-
A record CSV gives back the schemas and records written to it.

Cell by cell: numbers, hexadecimal bytes and tagged values are read as they were printed, by
the type their field declares.  Row by row: a schema row gives its schema and a record row
its record.  The reader then goes through the rows the writer wrote.
-/
import ProtoScope.Data.RecordCsv
import ProtoScope.Proofs.Data.Csv
import ProtoScope.Proofs.Data.ModelValues

namespace ProtoScope.Data

open ProtoScope.Library RecordCsvWriter RecordCsvReader

namespace RecordCsv

/-! ### Numbers -/

theorem fromCharsSigned_minus (rest : Text) :
    fromCharsSigned (minus :: rest) = (Decimal.parse rest).bind fun n =>
      if n ≤ 9223372036854775808 then some (-n : ℤ) else none := by
  unfold fromCharsSigned
  dsimp only
  rw [if_pos rfl]

theorem fromCharsSigned_signedText (value : Int64) :
    fromCharsSigned (signedText value) = some value.toInt := by
  have hmin := value.le_toInt
  have hmax := value.toInt_lt
  have hdigits := Decimal.parse_render value.toInt.natAbs
  unfold signedText
  by_cases hneg : value < 0
  · have hneg' : value.toInt < 0 := by
      rwa [Int64.lt_iff_toInt_lt, Int64.toInt_zero] at hneg
    rw [if_pos hneg]
    rw [fromCharsSigned_minus, hdigits]
    show (if value.toInt.natAbs ≤ 9223372036854775808 then _ else _) = _
    rw [if_pos (by omega)]
    congr 1
    omega
  · have hnonneg : 0 ≤ value.toInt := by
      rw [Int64.lt_iff_toInt_lt, Int64.toInt_zero] at hneg
      omega
    rw [if_neg hneg]
    cases hrender : Decimal.render value.toInt.natAbs with
    | nil => exact absurd hrender (Decimal.render_ne_nil _)
    | cons ch rest =>
      have hdigit : Decimal.IsDigit ch :=
        Decimal.isDigit_of_mem_render (hrender ▸ List.mem_cons_self)
      have hminus : ch ≠ minus := by
        rintro rfl
        exact absurd hdigit (by decide)
      rw [hrender] at hdigits
      show (if ch = minus then _ else _) = _
      rw [if_neg hminus, hdigits]
      show (if value.toInt.natAbs ≤ 9223372036854775807 then _ else _) = _
      rw [if_pos (by omega)]
      congr 1
      omega

theorem signedNumber_signedText (value : Int64) : signedNumber (signedText value) = .ok value := by
  unfold signedNumber
  rw [fromCharsSigned_signedText]
  exact congrArg Except.ok (Int64.ofInt_toInt value)

theorem optionalNumber_signedText (value : Option Int64) :
    optionalNumber ((value.map signedText).getD []) = .ok value := by
  cases value with
  | none => rfl
  | some value =>
    have hne : signedText value ≠ [] := by
      intro hempty
      have := fromCharsSigned_signedText value
      rw [hempty] at this
      cases this
    show (if signedText value = [] then _ else some <$> signedNumber (signedText value)) = _
    rw [if_neg hne, signedNumber_signedText]
    rfl

theorem unsignedNumber_unsignedText (value : UInt64) :
    unsignedNumber (unsignedText value) = .ok value := by
  unfold unsignedNumber unsignedText
  rw [Decimal.parse_render]
  show (if value.toNat < 18446744073709551616 then _ else _) = _
  rw [if_pos value.toNat_lt, UInt64.ofNat_toNat]

theorem version_unsignedText {id : UInt64} (hzero : id ≠ 0) (hmax : (id.toNat : ℤ) ≤ int64Max) :
    version (unsignedText id) = .ok id := by
  have hint : id.toInt64.toInt = id.toNat := toInt_toInt64 hmax
  have hsame : unsignedText id = signedText id.toInt64 := by
    unfold unsignedText signedText
    rw [if_neg (toInt64_not_neg hmax), hint, Int.natAbs_natCast]
  unfold version
  rw [hsame, signedNumber_signedText]
  show (invalid (id.toInt64 ≤ 0) _ >>= _) = _
  rw [invalid_of_not (toInt64_not_le_zero hzero hmax)]
  show Except.ok id.toInt64.toUInt64 = _
  rw [UInt64.toUInt64_toInt64]

/-! ### Hexadecimal bytes -/

theorem nibble_hexDigit {n : UInt8} (h : n.toNat < 16) : nibble (hexDigit n) = .ok n := by
  have hn : n = UInt8.ofNat n.toNat := UInt8.ofNat_toNat.symm
  rw [hn]
  interval_cases n.toNat <;> rfl

theorem nibbles_byte (byte : UInt8) : (byte >>> 4) * 16 + (byte &&& 15) = byte := by
  have hbyte : byte.toNat < 256 := byte.toNat_lt
  have hhigh : (byte >>> 4).toNat = byte.toNat / 16 := by
    rw [UInt8.toNat_shiftRight]
    exact Nat.shiftRight_eq_div_pow _ _
  have hlow : (byte &&& 15).toNat = byte.toNat % 16 := by
    rw [UInt8.toNat_and]
    exact Nat.and_two_pow_sub_one_eq_mod _ 4
  apply UInt8.toNat.inj
  rw [UInt8.toNat_add, UInt8.toNat_mul, hhigh, hlow]
  show ((byte.toNat / 16 * 16) % 256 + byte.toNat % 16) % 256 = _
  omega

theorem parseHex_hexText (bytes : List UInt8) : parseHex (hexText bytes) = .ok bytes := by
  induction bytes with
  | nil => rfl
  | cons byte bytes ih =>
    have hbyte : byte.toNat < 256 := byte.toNat_lt
    have hhigh : (byte >>> 4).toNat < 16 := by
      rw [UInt8.toNat_shiftRight]
      show byte.toNat >>> 4 < 16
      rw [Nat.shiftRight_eq_div_pow]
      omega
    have hlow : (byte &&& 15).toNat < 16 := by
      rw [UInt8.toNat_and]
      exact Nat.lt_of_le_of_lt Nat.and_le_right (by decide)
    show (nibble (hexDigit (byte >>> 4)) >>= _) = _
    rw [nibble_hexDigit hhigh]
    show (nibble (hexDigit (byte &&& 15)) >>= _) = _
    rw [nibble_hexDigit hlow]
    show (parseHex (hexText bytes) >>= _) = _
    rw [ih]
    show Except.ok (_ :: bytes) = _
    rw [nibbles_byte]

theorem hexText_length (bytes : List UInt8) : (hexText bytes).length = 2 * bytes.length := by
  induction bytes with
  | nil => rfl
  | cons byte bytes ih =>
    simp only [hexText, List.length_cons, ih]
    omega

/-! ### Cells -/

theorem fieldType_typeName (type : FieldType) : fieldType (typeName type) = .ok type := by
  cases type <;> rfl

theorem index_injective {first second : FieldType} (h : first.index = second.index) :
    first = second := by
  cases first <;> cases second <;> first | rfl | cases h

theorem typedScalar_tag (doubles : DoubleText) (field : Field) (rest : Text) :
    typedScalar doubles field (typeTag field.type :: 58 :: rest) =
      parseScalar doubles field.type rest := by
  have hnull : typeTag field.type :: 58 :: rest ≠ text "n:" := by
    intro h
    have htag : typeTag field.type = 110 := (List.cons.inj h).1
    cases hfield : field.type <;> rw [hfield] at htag <;> exact absurd htag (by decide)
  unfold typedScalar
  rw [if_neg hnull]
  exact if_pos rfl

/-- **A value is read back from its cell, by the type of its field.** -/
theorem typedScalar_scalarText {doubles : DoubleText} {field : Field} {value : Value} {cell : Text}
    (hchecked : checkValue field value = .ok ()) (h : scalarText doubles value = .ok cell) :
    typedScalar doubles field cell = .ok value := by
  obtain ⟨-, hchecked⟩ := invalid_of_ok hchecked
  obtain ⟨htype, hfinite⟩ := invalid_of_ok hchecked
  have hindex : value.index ≠ 0 → field.type.index = value.index := fun hne =>
    (not_not.mp fun hdiffers => htype ⟨hne, hdiffers⟩).symm
  cases value with
  | null =>
    cases h
    rfl
  | int64 value =>
    cases h
    have hfield : field.type = .int64 := index_injective (hindex (by simp [Value.index]))
    have hread := typedScalar_tag doubles field (signedText value)
    rw [hfield] at hread
    refine hread.trans ?_
    show Value.int64 <$> signedNumber (signedText value) = _
    rw [signedNumber_signedText]
    rfl
  | double value =>
    cases h
    have hfield : field.type = .double := index_injective (hindex (by simp [Value.index]))
    have hnumber : value.isFinite = true := by
      simpa using invalid_eq_ok.mp hfinite
    have hread := typedScalar_tag doubles field (doubles.toChars value)
    rw [hfield] at hread
    refine hread.trans ?_
    show Value.double <$> doubleNumber doubles (doubles.toChars value) = _
    unfold doubleNumber
    rw [doubles.fromChars_toChars value hnumber]
    show Value.double <$> (invalid (value.isFinite = false) _ >>= _) = _
    rw [invalid_of_not (by simp [hnumber])]
    rfl
  | bool value =>
    have hfield : field.type = .bool := index_injective (hindex (by simp [Value.index]))
    cases h
    have hread := typedScalar_tag doubles field (if value then text "true" else text "false")
    rw [hfield] at hread
    cases value with
    | false => exact hread
    | true => exact hread
  | string value =>
    cases h
    have hfield : field.type = .string := index_injective (hindex (by simp [Value.index]))
    have hread := typedScalar_tag doubles field value
    rw [hfield] at hread
    exact hread
  | bytes value =>
    have hfield : field.type = .bytes := index_injective (hindex (by simp [Value.index]))
    obtain ⟨-, h⟩ := invalid_of_ok h
    cases h
    have hread := typedScalar_tag doubles field (hexText value)
    rw [hfield] at hread
    refine hread.trans ?_
    have heven : ¬ (hexText value).length % 2 ≠ 0 := by
      rw [hexText_length]
      omega
    show (invalid ((hexText value).length % 2 ≠ 0) _ >>= _) = _
    rw [invalid_of_not heven]
    show (parseHex (hexText value) >>= _) = _
    rw [parseHex_hexText]
    rfl
  | array values => cases h
  | object entries => cases h

/-- The cells of a record give its values. -/
theorem rowValues_valueTexts {doubles : DoubleText} {fields : List Field} {values : List Value}
    {cells : List Text} (hlength : values.length = fields.length)
    (hchecked : checkValues fields values = .ok ()) (h : valueTexts doubles values = .ok cells) :
    rowValues doubles fields cells = .ok values ∧ cells.length = fields.length := by
  induction fields generalizing values cells with
  | nil =>
    rw [List.length_eq_zero_iff.mp hlength] at h ⊢
    cases h
    exact ⟨rfl, rfl⟩
  | cons field fields ih =>
    obtain ⟨value, values, rfl⟩ := List.exists_cons_of_length_eq_add_one hlength
    obtain ⟨_, hfirst, hrest⟩ := bind_eq_ok.mp hchecked
    obtain ⟨cell, hcell, h⟩ := bind_eq_ok.mp h
    obtain ⟨others, hothers, h⟩ := bind_eq_ok.mp h
    cases h
    obtain ⟨hvalues, hcells⟩ := ih (by simpa using hlength) hrest hothers
    refine ⟨?_, by simp [hcells]⟩
    show (typedScalar doubles field cell >>= _) = _
    rw [typedScalar_scalarText hfirst hcell]
    show (rowValues doubles fields others >>= _) = _
    rw [hvalues]
    rfl

/-! ### Rows -/

/-- The cells of a field in a schema row. -/
def fieldCells (field : Field) : List Text :=
  [field.name, typeName field.type, if field.nullable then text "true" else text "false"]

theorem schemaFields_fieldCells (fields : List Field) :
    schemaFields (fields.flatMap fieldCells) = .ok fields ∧
      (fields.flatMap fieldCells).length = 3 * fields.length := by
  induction fields with
  | nil => exact ⟨rfl, rfl⟩
  | cons field fields ih =>
    obtain ⟨hfields, hlength⟩ := ih
    obtain ⟨name, type, nullable⟩ := field
    refine ⟨?_, ?_⟩
    · have hflag : ¬ ((if nullable then text "true" else text "false") ≠ text "true" ∧
          (if nullable then text "true" else text "false") ≠ text "false") := by
        cases nullable <;> simp
      show (invalid _ _ >>= _) = _
      rw [invalid_of_not hflag]
      show (fieldType (typeName type) >>= _) = _
      rw [fieldType_typeName]
      show (schemaFields (fields.flatMap fieldCells) >>= _) = _
      rw [hfields]
      cases nullable <;> rfl
    · simp only [List.flatMap_cons, List.length_append, hlength, fieldCells, List.length_cons,
        List.length_nil]
      omega

/-- **A schema row gives its schema.** -/
theorem parseSchemaRow_schemaRow {id : UInt64} {schema : Schema}
    (hvalid : validateSchema schema = .ok ()) :
    parseSchemaRow (schemaRow id schema) = .ok (unsignedText id, schema) := by
  obtain ⟨hfields, hlength⟩ := schemaFields_fieldCells schema.fields
  have hsome : schema.fields.length ≠ 0 := by
    obtain ⟨_, -, hcount⟩ := bind_eq_ok.mp hvalid
    obtain ⟨hcount, -⟩ := invalid_of_ok hcount
    intro hzero
    exact hcount (.inl (by rw [List.length_eq_zero_iff.mp hzero]; rfl))
  show (invalid ((schema.fields.flatMap fieldCells).length + 1 + 1 + 1 < 6 ∨
    (schema.fields.flatMap fieldCells).length % 3 ≠ 0) _ >>= _) = _
  rw [invalid_of_not (by omega)]
  show (schemaFields (schema.fields.flatMap fieldCells) >>= _) = _
  rw [hfields]
  show (validateSchema schema >>= _) = _
  rw [hvalid]
  rfl

/-- **A record row gives its record.** -/
theorem recordOfRow_recordRow {doubles : DoubleText} {reader : RecordCsvReader} {schema : Schema}
    {record : Record} {row : List Text}
    (hschema : reader.schemas.find record.schemaVersion = some schema)
    (hversion : record.schemaVersion ≠ 0 ∧ (record.schemaVersion.toNat : ℤ) ≤ int64Max)
    (hvalid : validateRecord schema record = .ok ()) (h : recordRow doubles record = .ok row) :
    reader.recordOfRow doubles row = .ok record := by
  obtain ⟨cells, hcells, h⟩ := bind_eq_ok.mp h
  cases h
  obtain ⟨_, -, hchecks⟩ := bind_eq_ok.mp hvalid
  obtain ⟨-, hchecks⟩ := invalid_of_ok hchecks
  obtain ⟨hshape, hvalues⟩ := invalid_of_ok hchecks
  have hlength : record.values.length = schema.fields.length :=
    not_not.mp fun hne => hshape (.inr hne)
  obtain ⟨hrow, hcount⟩ := rowValues_valueTexts hlength hvalues hcells
  obtain ⟨protocol, dataset, device, receivedAtUs, deviceTimeUs, id, values⟩ := record
  show (invalid (text "record" ≠ text "record") _ >>= _) = _
  rw [invalid_of_not (by simp)]
  show (version (unsignedText id) >>= _) = _
  rw [version_unsignedText hversion.1 hversion.2, ok_bind]
  dsimp only at hschema ⊢
  rw [hschema]
  show (invalid (cells.length ≠ schema.fields.length) _ >>= _) = _
  rw [invalid_of_not (not_not.mpr hcount)]
  show (signedNumber (signedText receivedAtUs) >>= _) = _
  rw [signedNumber_signedText]
  show (optionalNumber ((deviceTimeUs.map signedText).getD []) >>= _) = _
  rw [optionalNumber_signedText]
  show (rowValues doubles schema.fields cells >>= _) = _
  rw [hrow]
  show (validateRecord schema _ >>= _) = _
  rw [hvalid]
  rfl

end RecordCsv

/-! ### Files -/

namespace RecordCsvReader

open RecordCsv

/-- The calls of `next` give these records in turn and then report the end of the file. -/
inductive Gives (doubles : DoubleText) : RecordCsvReader → List Record → Prop
  | complete {reader after : RecordCsvReader} (h : reader.next doubles = (.ok none, after)) :
      Gives doubles reader []
  | record {reader after : RecordCsvReader} {record : Record} {records : List Record}
      (h : reader.next doubles = (.ok (some record), after))
      (hrest : Gives doubles after records) : Gives doubles reader (record :: records)

variable {row : List Text} {schemas : Schemas} {after : RecordCsvReader} {doubles : DoubleText}
  {result : Option Record}

/-- A row that is not one of a schema is held. -/
theorem readSchemas_of_other {fields : ℕ} {rows after : CsvRowReader}
    (h : rows.next = (.ok (some row), after)) (hrow : row.head? ≠ some (text "schema")) :
    readSchemas fields schemas rows =
      .ok { rows := after, schemas := schemas, pending := some row } := by
  rw [readSchemas]
  split
  · rename_i hnext
    rw [h] at hnext
    cases hnext
  · rename_i hnext
    rw [h] at hnext
    cases hnext
  · rename_i hnext
    rw [h] at hnext
    cases hnext
    rw [if_pos hrow]

/-- A row of a schema puts it into the map. -/
theorem readSchemas_of_schema {fields : ℕ} {more : Schemas} {rows after : CsvRowReader}
    {id : UInt64} {schema : Schema} (h : rows.next = (.ok (some (schemaRow id schema)), after))
    (hvalid : validateSchema schema = .ok ())
    (hroom : ¬ (1024 ≤ schemas.entries.length ∨ 16384 < fields + schema.fields.length))
    (hid : id ≠ 0 ∧ (id.toNat : ℤ) ≤ int64Max) (hemplace : schemas.emplace id schema = some more) :
    readSchemas fields schemas rows = readSchemas (fields + schema.fields.length) more after := by
  have hhead : (schemaRow id schema).head? = some (text "schema") := rfl
  rw [readSchemas]
  split
  · rename_i hnext
    rw [h] at hnext
    cases hnext
  · rename_i hnext
    rw [h] at hnext
    cases hnext
  · rename_i row last hnext
    rw [h] at hnext
    cases hnext
    rw [if_neg (not_not.mpr hhead), parseSchemaRow_schemaRow hvalid]
    show (if _h : 1024 ≤ schemas.entries.length ∨ 16384 < fields + schema.fields.length then _
      else _) = _
    rw [dif_neg hroom, version_unsignedText hid.1 hid.2, ok_bind]
    split
    · rename_i hnone
      rw [hemplace] at hnone
      cases hnone
    · rename_i next hsome
      rw [hemplace] at hsome
      cases hsome
      rfl

/-- **The rows of the schemas give the schemas**; the row after them is held for `next`. -/
theorem readSchemas_writeSchemas {fields : ℕ} {schemas : List (UInt64 × Schema)}
    {lines : List UInt8} (hcheck : checkSchemas fields schemas = .ok ())
    (h : writeSchemas schemas = .ok lines) {earlier result : Schemas}
    (hresult : result.entries = earlier.entries ++ schemas) (hcount : result.entries.length ≤ 1024)
    {rest : List UInt8} {last : CsvRowReader}
    (hlast : (CsvRowReader.ahead rest).next = (.ok (some row), last))
    (hrow : row.head? ≠ some (text "schema")) :
    readSchemas fields earlier (CsvRowReader.ahead (lines ++ rest)) =
      .ok { rows := last, schemas := result, pending := some row } := by
  induction schemas generalizing fields lines earlier with
  | nil =>
    cases h
    rw [List.append_nil] at hresult
    rw [List.nil_append, readSchemas_of_other hlast hrow, Schemas.eq_of_entries hresult]
  | cons entry schemas ih =>
    obtain ⟨id, schema⟩ := entry
    obtain ⟨hid, hcheck⟩ := invalid_of_ok hcheck
    obtain ⟨_, hvalid, hcheck⟩ := bind_eq_ok.mp hcheck
    obtain ⟨hfields, hcheck⟩ := invalid_of_ok hcheck
    obtain ⟨line, hline, h⟩ := bind_eq_ok.mp h
    obtain ⟨others, hothers, h⟩ := bind_eq_ok.mp h
    cases h
    obtain ⟨next, hemplace, hentries⟩ := Schemas.emplace_next hresult
    have hroom : ¬ (1024 ≤ earlier.entries.length ∨ 16384 < fields + schema.fields.length) := by
      rw [hresult, List.length_append, List.length_cons] at hcount
      omega
    have hread := CsvRowReader.next_of_writeCsvRow (List.cons_ne_nil _ _) hline (others ++ rest)
    rw [List.append_assoc, readSchemas_of_schema hread hvalid hroom
      ⟨fun hzero => hid (.inl hzero), by omega⟩ hemplace]
    exact ih hcheck hothers hentries

/-! #### The calls of `next` -/

theorem next_of_nextRow {reader : RecordCsvReader} (hfailed : reader.failed = false)
    (hfinished : reader.finished = false) (h : reader.nextRow doubles = .ok (result, after)) :
    reader.next doubles = (.ok result, after) := by
  unfold next
  rw [if_neg (by simp [hfailed]), if_neg (by simp [hfinished]), h]

theorem nextRow_of_next {reader : RecordCsvReader} (hfinished : reader.finished = false)
    (h : reader.next doubles = (.ok result, after)) :
    reader.nextRow doubles = .ok (result, after) := by
  unfold next at h
  rw [hfinished] at h
  split at h
  · cases h
  rw [if_neg Bool.false_ne_true] at h
  split at h
  · rename_i heq
    cases h
    exact heq
  · cases h

/-- It does not matter whether the next row is held or still in the stream. -/
theorem Gives.of_held {count : UInt64} {first last : CsvRowReader} {records : List Record}
    (hfirst : first.next = (.ok (some row), last))
    (h : Gives doubles { rows := first, schemas := schemas, pending := none, count := count } records)
    : Gives doubles { rows := last, schemas := schemas, pending := some row, count := count }
      records := by
  have hsame : nextRow doubles
        { rows := last, schemas := schemas, pending := some row, count := count } =
      nextRow doubles { rows := first, schemas := schemas, pending := none, count := count } := by
    unfold nextRow
    dsimp only
    rw [hfirst]
    rfl
  cases h with
  | complete h =>
    exact .complete (next_of_nextRow rfl rfl (hsame.trans (nextRow_of_next rfl h)))
  | record h hrest =>
    exact .record (next_of_nextRow rfl rfl (hsame.trans (nextRow_of_next rfl h))) hrest

/-- A reader in front of a row. -/
def before (schemas : Schemas) (count : UInt64) (stream : List UInt8) : RecordCsvReader where
  rows := CsvRowReader.ahead stream
  schemas := schemas
  pending := none
  count := count

theorem next_before {count : UInt64} {line rest : List UInt8} (hrow : row ≠ [])
    (hline : writeCsvRow row = .ok line)
    (haccept : (before schemas count (line ++ rest)).acceptRow doubles row (CsvRowReader.ahead rest) = .ok (result, after))
    : (before schemas count (line ++ rest)).next doubles = (.ok result, after) := by
  apply next_of_nextRow rfl rfl
  dsimp only [nextRow, before]
  rw [CsvRowReader.next_of_writeCsvRow hrow hline rest]
  exact haccept

theorem acceptRow_record (reader : RecordCsvReader) {schema : Schema} {record : Record}
    (rows : CsvRowReader) (hschema : reader.schemas.find record.schemaVersion = some schema)
    (hversion : record.schemaVersion ≠ 0 ∧ (record.schemaVersion.toNat : ℤ) ≤ int64Max)
    (hvalid : validateRecord schema record = .ok ()) (h : recordRow doubles record = .ok row)
    (hcount : reader.count ≠ 18446744073709551615) :
    reader.acceptRow doubles row rows =
      .ok (some record, { reader with rows := rows, pending := none, count := reader.count + 1 }) := by
  have hhead : row.head? ≠ some (text "end") := by
    obtain ⟨cells, -, h⟩ := bind_eq_ok.mp h
    cases h
    show some (text "record") ≠ some (text "end")
    decide
  unfold acceptRow
  rw [if_neg hhead, recordOfRow_recordRow hschema hversion hvalid h]
  show (invalid (reader.count = 18446744073709551615) _ >>= _) = _
  rw [invalid_of_not hcount]
  rfl

theorem acceptRow_end (doubles : DoubleText) (schemas : Schemas) (count : UInt64)
    (stream : List UInt8) :
    (before schemas count stream).acceptRow doubles [text "end", unsignedText count]
      (CsvRowReader.ahead []) = .ok (none, { before schemas count [] with finished := true }) := by
  have hempty : (CsvRowReader.ahead []).next = (.ok none, CsvRowReader.ahead []) := by
    have hrow : CsvRowReader.readRow (CsvRowReader.ahead []) {} =
        .ok (none, CsvRowReader.ahead []) := by
      rw [CsvRowReader.readRow]
      rfl
    unfold CsvRowReader.next
    rw [if_neg (by exact Bool.false_ne_true), hrow]
  have hhead : [text "end", unsignedText count].head? = some (text "end") := rfl
  unfold acceptRow
  rw [if_pos hhead]
  dsimp only
  rw [unsignedNumber_unsignedText]
  show (invalid (count ≠ count) _ >>= _) = _
  rw [invalid_of_not (not_not.mpr rfl), ok_bind, hempty]
  rfl

/-- A row that is accepted is not one of a schema. -/
theorem acceptRow_head {reader : RecordCsvReader} {rows : CsvRowReader}
    (h : reader.acceptRow doubles row rows = .ok (result, after)) :
    row.head? ≠ some (text "schema") := by
  intro hhead
  have hend : row.head? ≠ some (text "end") := by
    rw [hhead]
    decide
  unfold acceptRow at h
  rw [if_neg hend] at h
  obtain ⟨record, hrecord, -⟩ := bind_eq_ok.mp h
  unfold recordOfRow at hrecord
  split at hrecord
  · obtain ⟨hkind, -⟩ := invalid_of_ok hrecord
    apply hkind
    intro hkind
    rw [hkind] at hhead
    have hsame : text "record" = text "schema" := Option.some.inj hhead
    exact absurd hsame (by decide)
  · cases hrecord

/-- What is given begins with a row. -/
theorem Gives.first_row {count : UInt64} {stream : List UInt8} {records : List Record}
    (h : Gives doubles (before schemas count stream) records) :
    ∃ row last, (CsvRowReader.ahead stream).next = (.ok (some row), last) ∧
      row.head? ≠ some (text "schema") := by
  obtain ⟨result, after, hnext⟩ :
      ∃ result after, nextRow doubles (before schemas count stream) = .ok (result, after) := by
    cases h with
    | complete h => exact ⟨_, _, nextRow_of_next rfl h⟩
    | record h hrest => exact ⟨_, _, nextRow_of_next rfl h⟩
  unfold nextRow before at hnext
  dsimp only at hnext
  split at hnext
  · cases hnext
  · cases hnext
  · rename_i row rows hrow
    exact ⟨row, rows, hrow, acceptRow_head hnext⟩

end RecordCsvReader

namespace RecordCsvWriter

open RecordCsv

/-- Versions the writer has checked. -/
theorem version_of_checkSchemas {fields : ℕ} {schemas : List (UInt64 × Schema)}
    (h : checkSchemas fields schemas = .ok ()) {id : UInt64} {schema : Schema}
    (hfind : schemas.lookup id = some schema) : id ≠ 0 ∧ (id.toNat : ℤ) ≤ int64Max := by
  induction schemas generalizing fields with
  | nil => cases hfind
  | cons entry schemas ih =>
    obtain ⟨first, other⟩ := entry
    obtain ⟨hid, h⟩ := invalid_of_ok h
    obtain ⟨_, -, h⟩ := bind_eq_ok.mp h
    obtain ⟨-, h⟩ := invalid_of_ok h
    rw [List.lookup_cons] at hfind
    split at hfind
    · rename_i heq
      rw [beq_iff_eq.mp heq]
      exact ⟨fun hzero => hid (.inl hzero), by omega⟩
    · exact ih h hfind

/-- **The rows of the records give the records, before what the rest gives.** -/
theorem gives_appendAll {doubles : DoubleText} {sizeofValue fields : ℕ}
    {writer after : RecordCsvWriter} {records : List Record}
    (hcheck : checkSchemas fields writer.schemas.entries = .ok ())
    (h : writer.appendAll doubles sizeofValue records = .ok after) :
    ∃ lines, after.stream = writer.stream ++ lines ∧ ∀ rest,
      RecordCsvReader.Gives doubles (.before writer.schemas after.count rest) [] →
      RecordCsvReader.Gives doubles (.before writer.schemas writer.count (lines ++ rest))
        records := by
  induction records generalizing writer with
  | nil =>
    cases h
    exact ⟨[], (List.append_nil _).symm, fun rest hrest => hrest⟩
  | cons record records ih =>
    unfold appendAll at h
    split at h
    · rename_i u middle happend
      unfold append at happend
      split at happend
      · cases happend
      split at happend
      · rename_i next hbody
        cases happend
        unfold appendRow at hbody
        split at hbody
        · cases hbody
        rename_i schema hschema
        obtain ⟨_, hvalid, hbody⟩ := bind_eq_ok.mp hbody
        obtain ⟨_, -, hbody⟩ := bind_eq_ok.mp hbody
        obtain ⟨row, hrow, hbody⟩ := bind_eq_ok.mp hbody
        obtain ⟨hcount, hbody⟩ := invalid_of_ok hbody
        obtain ⟨line, hline, hbody⟩ := bind_eq_ok.mp hbody
        cases hbody
        obtain ⟨lines, hstream, hgives⟩ := ih (by exact hcheck) h
        refine ⟨line ++ lines, by rw [hstream, List.append_assoc], fun rest hrest => ?_⟩
        have hne : row ≠ [] := by
          obtain ⟨cells, -, hrow⟩ := bind_eq_ok.mp hrow
          cases hrow
          exact List.cons_ne_nil _ _
        have haccept := acceptRow_record
          (.before writer.schemas writer.count (line ++ (lines ++ rest)))
          (CsvRowReader.ahead (lines ++ rest)) hschema
          (version_of_checkSchemas hcheck hschema) hvalid hrow hcount
        rw [List.append_assoc]
        exact .record (next_before hne hline haccept) (hgives rest hrest)
      · cases happend
    · cases h

end RecordCsvWriter

namespace RecordCsvReader

open RecordCsv

/-- The line of the version row. -/
def versionLine : List UInt8 := text "protoscope_csv,1\n"

theorem writeCsvRow_versionRow : writeCsvRow versionRow = .ok versionLine := by
  decide +kernel

theorem stripBom_versionRow : stripBom versionRow = versionRow := by
  decide

/-- The file does not begin like a byte-order mark. -/
theorem construct_versionLine (rest : List UInt8) :
    CsvRowReader.construct (versionLine ++ rest) = CsvRowReader.ahead (versionLine ++ rest) := by
  have hhead : (versionLine ++ rest).head? = some 112 := rfl
  unfold CsvRowReader.construct
  rw [hhead, if_neg (by decide)]
  rfl

theorem construct_of_next {stream : List UInt8} {row : List Text} {rows : CsvRowReader}
    (h : (CsvRowReader.construct stream).next = (.ok (some row), rows))
    (hrow : stripBom row = versionRow) :
    construct stream = readSchemas 0 .empty rows := by
  have hversion : invalid (stripBom row ≠ versionRow) "unsupported record CSV version" = .ok () :=
    invalid_of_not (not_not.mpr hrow) _
  unfold construct
  rw [h]
  dsimp only
  rw [hversion]
  exact pure_bind () _

theorem construct_eq {schemas : Schemas} {rows rest : List UInt8} {row : List Text}
    {last : CsvRowReader} (hcount : schemas.entries.length ≤ 1024)
    (hcheck : checkSchemas 0 schemas.entries = .ok ())
    (hrows : writeSchemas schemas.entries = .ok rows)
    (hlast : (CsvRowReader.ahead rest).next = (.ok (some row), last))
    (hrow : row.head? ≠ some (text "schema")) :
    construct (versionLine ++ (rows ++ rest)) =
      .ok { rows := last, schemas := schemas, pending := some row } := by
  have hne : versionRow ≠ [] := List.cons_ne_nil _ _
  have hread := CsvRowReader.next_of_writeCsvRow hne writeCsvRow_versionRow (rows ++ rest)
  rw [← construct_versionLine] at hread
  have hentries : schemas.entries = Schemas.empty.entries ++ schemas.entries := rfl
  rw [construct_of_next hread stripBom_versionRow]
  exact readSchemas_writeSchemas hcheck hrows hentries hcount hlast hrow

end RecordCsvReader

/-- **A record CSV gives back its schemas and, in order, its records.** -/
theorem recordCsv_gives {doubles : DoubleText} {sizeofValue : ℕ} {schemas : Schemas}
    {records : List Record} {file : List UInt8}
    (h : RecordCsvWriter.writeFile doubles sizeofValue schemas records = .ok file) :
    ∃ reader, RecordCsvReader.construct file = .ok reader ∧ reader.schemas = schemas ∧
      reader.Gives doubles records := by
  obtain ⟨opened, hconstruct, h⟩ := bind_eq_ok.mp h
  obtain ⟨hcount, hconstruct⟩ := invalid_of_ok hconstruct
  obtain ⟨_, hcheck, hconstruct⟩ := bind_eq_ok.mp hconstruct
  obtain ⟨head, hhead, hconstruct⟩ := bind_eq_ok.mp hconstruct
  obtain ⟨rows, hrows, hconstruct⟩ := bind_eq_ok.mp hconstruct
  rw [RecordCsvReader.writeCsvRow_versionRow] at hhead
  cases hhead
  cases hconstruct
  obtain ⟨written, hwritten, h⟩ := bind_eq_ok.mp h
  obtain ⟨lines, hstream, hgives⟩ := RecordCsvWriter.gives_appendAll (by exact hcheck) hwritten
  split at h
  · rename_i u finished hfinish
    cases h
    unfold RecordCsvWriter.finish at hfinish
    split at hfinish
    · cases hfinish
    split at hfinish
    · rename_i last hlast
      cases hfinish
      have hend : RecordCsvReader.Gives doubles (.before schemas written.count last) [] := by
        have hnext := RecordCsvReader.next_before (List.cons_ne_nil _ _) hlast
          (RecordCsvReader.acceptRow_end doubles schemas written.count (last ++ []))
        rw [List.append_nil] at hnext
        exact .complete hnext
      have hall := hgives last hend
      obtain ⟨row, held, hheld, hother⟩ := hall.first_row
      have hopened := RecordCsvReader.construct_eq (Nat.le_of_not_lt hcount) hcheck hrows hheld
        hother
      refine ⟨_, ?_, rfl, hall.of_held hheld⟩
      show RecordCsvReader.construct (written.stream ++ last) = _
      rw [hstream, List.append_assoc, List.append_assoc]
      exact hopened
    · cases hfinish
  · cases h

/-- The double 1.5 -/
def oneAndHalf : Float := Float.ofBits 0x3FF8000000000000

/-- Prints 1.5 as `1.5` and any other double as the number of its bits. -/
def sampleDoubleText : DoubleText where
  toChars x := if x.toBits = oneAndHalf.toBits then text "1.5" else Decimal.render x.toBits.toNat
  fromChars cell :=
    if cell = text "1.5" then some oneAndHalf
    else (Decimal.parse cell).map fun n => Float.ofBits (UInt64.ofNat n)
  fromChars_toChars := by
    intro x _
    by_cases hx : x.toBits = oneAndHalf.toBits
    · rw [if_pos hx, if_pos rfl, Float.toBits_inj.mp hx]
    · have hpoint : Decimal.render x.toBits.toNat ≠ text "1.5" := by
        intro heq
        have hdot : (46 : UInt8) ∈ Decimal.render x.toBits.toNat := heq ▸ by decide
        exact absurd (Decimal.isDigit_of_mem_render hdot) (by decide)
      rw [if_neg hx, if_neg hpoint, Decimal.parse_render]
      show some (Float.ofBits (UInt64.ofNat x.toBits.toNat)) = some x
      rw [UInt64.ofNat_toNat, Float.ofBits_toBits]

/-- A text with a quote, a comma and a line feed, an empty text, and a field without a value. -/
def sampleTexts : Schemas where
  entries := [(3, {
    dataset := text "#log"
    fields := [
      { name := text "line", type := .string },
      { name := text "empty", type := .string },
      { name := text "level", type := .double },
      { name := text "raw", type := .bytes, nullable := true }] })]

def sampleTextRecord : Record where
  protocol := text "p"
  dataset := text "#log"
  device := []
  receivedAtUs := -7
  schemaVersion := 3
  values := [.string (text "a \"b\",\nc"), .string [], .double oneAndHalf, .null]

theorem recordCsv_gives_sample :
    ∃ file reader, RecordCsvWriter.writeFile sampleDoubleText 56 sampleTexts [sampleTextRecord] =
        .ok file ∧
      RecordCsvReader.construct file = .ok reader ∧ reader.schemas = sampleTexts ∧
        reader.Gives sampleDoubleText [sampleTextRecord] := by
  have hwritten : (RecordCsvWriter.writeFile sampleDoubleText 56 sampleTexts
      [sampleTextRecord]).isOk = true := by
    decide +kernel
  cases hfile : RecordCsvWriter.writeFile sampleDoubleText 56 sampleTexts [sampleTextRecord] with
  | error message =>
    rw [hfile] at hwritten
    cases hwritten
  | ok file =>
    obtain ⟨reader, hreader, hschemas, hgives⟩ := recordCsv_gives hfile
    exact ⟨file, reader, rfl, hreader, hschemas, hgives⟩

end ProtoScope.Data
