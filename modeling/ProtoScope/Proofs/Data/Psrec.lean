/-
A record file gives back what was written to it, and only when it is whole.

Block by block the reader takes what the writer put down, so a written file reads as its
schemas and records.  And the reader looks at nothing beyond the last block but the end of
the file: of two files that are both accepted, none is a proper beginning of the other.
Hence no cut and no longer version of a written file is accepted.
-/
import ProtoScope.Data.Psrec
import ProtoScope.Proofs.Data.ModelValues

namespace ProtoScope.Data

open ProtoScope.Library Psrec LittleEndian ByteReader.Reads

/-! ### Integers of a block -/

theorem put_eq_digits (size : ℕ) (value : UInt64) :
    put size value = digits size value.toNat := by
  induction size generalizing value with
  | zero => rfl
  | succ size ih =>
    have hbyte : value.toUInt8 = UInt8.ofNat value.toNat := by
      apply UInt8.toNat.inj
      rw [UInt64.toNat_toUInt8, UInt8.toNat_ofNat']
    have hshift : (value >>> 8).toNat = value.toNat / 256 := by
      rw [UInt64.toNat_shiftRight]
      exact Nat.shiftRight_eq_div_pow _ _
    rw [put, ih, hbyte, hshift]
    rfl

@[simp] theorem put_length (size : ℕ) (value : UInt64) : (put size value).length = size := by
  rw [put_eq_digits, digits_length]

theorem getFrom_toNat (i : ℕ) (value : UInt64) (bytes : List UInt8) (hi : i + bytes.length ≤ 8)
    (hvalue : value.toNat < 256 ^ i) :
    (getFrom i value bytes).toNat = value.toNat + 256 ^ i * number bytes := by
  induction bytes generalizing i value with
  | nil => simp [getFrom, number]
  | cons byte bytes ih =>
    rw [List.length_cons] at hi
    have hor := or_shiftLeft (by omega : i < 8) hvalue byte
    have hnext : (value ||| (byte.toUInt64 <<< UInt64.ofNat (i * 8))).toNat < 256 ^ (i + 1) := by
      have hbyte : byte.toNat + 1 ≤ 256 := byte.toNat_lt
      have := Nat.mul_le_mul_left (256 ^ i) hbyte
      rw [Nat.mul_comm i, hor, Nat.pow_succ]
      rw [Nat.mul_add] at this
      omega
    rw [getFrom, ih (i + 1) _ (by omega) hnext, Nat.mul_comm i, hor, number,
      Nat.pow_succ]
    ring

/-- What was put is got again. -/
theorem get_put {size : ℕ} {value : UInt64} (hsize : size ≤ 8) (hvalue : value.toNat < 256 ^ size) :
    get (put size value) = value := by
  apply UInt64.toNat.inj
  have := getFrom_toNat 0 0 (put size value) (by simpa using hsize) (by decide)
  rw [Psrec.get, this, put_eq_digits, number_digits_of_lt hvalue]
  simp

/-! ### Blocks -/

theorem readBlock_extends (sequence : UInt64) : (readBlock sequence).Extends := by
  refine (ByteReader.Extends.take _ _).bind fun head => ?_
  refine (ByteReader.Extends.ofExcept _).bind fun _ => ?_
  refine (ByteReader.Extends.take _ _).bind fun payload => ?_
  refine (ByteReader.Extends.take _ _).bind fun sum => ?_
  exact (ByteReader.Extends.ofExcept _).bind fun _ => ByteReader.Extends.pure _

/-- The head of a block: its type, the length of its payload and its sequence number. -/
def blockHead (type : UInt32) (sequence : UInt64) (payload : List UInt8) : List UInt8 :=
  put 4 type.toUInt64 ++ put 4 (UInt64.ofNat payload.length) ++ put 8 sequence

theorem blockHead_length (type : UInt32) (sequence : UInt64) (payload : List UInt8) :
    (blockHead type sequence payload).length = 16 := by
  simp [blockHead]

theorem get_blockHead (type : UInt32) (sequence : UInt64) {payload : List UInt8}
    (hlength : payload.length < 256 ^ 4) :
    Psrec.get ((blockHead type sequence payload).take 4) = type.toUInt64 ∧
      Psrec.get (((blockHead type sequence payload).drop 4).take 4) =
        UInt64.ofNat payload.length ∧
      Psrec.get ((blockHead type sequence payload).drop 8) = sequence := by
  have htype : (put 4 type.toUInt64).length = 4 := put_length _ _
  have hsize : (put 4 (UInt64.ofNat payload.length)).length = 4 := put_length _ _
  have hnumber : (UInt64.ofNat payload.length).toNat = payload.length :=
    UInt64.toNat_ofNat_of_lt (Nat.lt_of_lt_of_le hlength (by decide))
  unfold blockHead
  refine ⟨?_, ?_, ?_⟩
  · rw [List.append_assoc, List.take_left' htype]
    exact get_put (by omega) type.toNat_lt
  · rw [List.append_assoc, List.drop_left' htype, List.take_left' hsize]
    exact get_put (by omega) (by omega)
  · rw [List.drop_left' (by rw [List.length_append, htype, hsize])]
    exact get_put (by omega) sequence.toNat_lt

/-- **The reader takes a block that was written.** -/
theorem readBlock_reads {type : UInt32} {sequence : UInt64} {payload block : List UInt8}
    (htype : metadataBlock ≤ type ∧ type ≤ endBlock)
    (h : writeBlock type sequence payload = .ok block) :
    (readBlock sequence).Reads block ⟨type, payload⟩ := by
  obtain ⟨hlimit, hblock⟩ := invalid_of_ok h
  cases hblock
  have hfits : payload.length ≤ 33554432 := Nat.le_of_not_lt hlimit
  have hnumber : (UInt64.ofNat payload.length).toNat = payload.length :=
    UInt64.toNat_ofNat_of_lt (Nat.lt_of_le_of_lt hfits (by decide))
  obtain ⟨hgetType, hgetSize, hgetSequence⟩ :=
    get_blockHead type sequence (Nat.lt_of_le_of_lt hfits (by decide) : payload.length < 256 ^ 4)
  have hchecked : invalid (Psrec.get ((blockHead type sequence payload).drop 8) ≠ sequence ∨
      limits.maxBytes < Psrec.get (((blockHead type sequence payload).drop 4).take 4) ∨
      Psrec.get ((blockHead type sequence payload).take 4) < metadataBlock.toUInt64 ∨
      endBlock.toUInt64 < Psrec.get ((blockHead type sequence payload).take 4))
      "invalid psrec block header" = .ok () := by
    apply invalid_of_not
    rw [hgetType, hgetSize, hgetSequence, UInt64.lt_iff_toNat_lt, UInt64.lt_iff_toNat_lt,
      UInt64.lt_iff_toNat_lt, hnumber, UInt32.toNat_toUInt64, UInt32.toNat_toUInt64,
      UInt32.toNat_toUInt64]
    have hlow := UInt32.le_iff_toNat_le.mp htype.1
    have hhigh := UInt32.le_iff_toNat_le.mp htype.2
    rintro (hne | hlt | hlt | hlt)
    · exact hne rfl
    · exact hlimit hlt
    · exact Nat.not_lt.mpr hlow hlt
    · exact Nat.not_lt.mpr hhigh hlt
  have hsum : Psrec.get (put 4 (checksum (blockHead type sequence payload) payload).toUInt64) =
      (checksum (blockHead type sequence payload) payload).toUInt64 :=
    get_put (by omega) (UInt32.toNat_lt _)
  have hread : (readBlock sequence).Reads (blockHead type sequence payload ++
      (payload ++ (put 4 (checksum (blockHead type sequence payload) payload).toUInt64 ++ [])))
      ⟨type, payload⟩ := by
    refine bind (a := blockHead type sequence payload) ?_ ?_
    · have := take "psrec truncated or unreadable"
        (blockHead type sequence payload)
      rwa [blockHead_length] at this
    refine ofExcept_bind hchecked ?_
    refine bind (a := payload) ?_ ?_
    · rw [hgetSize, hnumber]
      exact take _ payload
    refine bind ?_ ?_
      (a := put 4 (checksum (blockHead type sequence payload) payload).toUInt64)
    · have := take "psrec truncated or unreadable"
        (put 4 (checksum (blockHead type sequence payload) payload).toUInt64)
      rwa [put_length] at this
    refine ofExcept_bind (invalid_of_not (not_not.mpr hsum) _) ?_
    rw [hgetType, UInt32.toUInt32_toUInt64]
    exact pure _
  rw [List.append_nil, ← List.append_assoc] at hread
  exact hread

/-! ### The block of schemas -/

theorem decoded_of_encodeValue {value : Value} {bytes : List UInt8} (hvalue : value.Ordered)
    (h : encodeValue value limits = .ok bytes) : decoded bytes = .ok value := by
  unfold decoded
  rw [decodeValue_of_encodeValue hvalue h]

/-- Entries that were written are put into the map one after another. -/
theorem parseEntries_metadataEntries {budget fields : ℕ} {schemas : List (UInt64 × Schema)}
    {values : List Value} (h : metadataEntries budget fields schemas = .ok values)
    (earlier result : Schemas) (hresult : result.entries = earlier.entries ++ schemas) :
    parseEntries fields earlier values = .ok result ∧ ValuesOrdered values ∧
      values.length = schemas.length := by
  induction schemas generalizing budget fields values earlier with
  | nil =>
    cases h
    rw [List.append_nil] at hresult
    exact ⟨congrArg Except.ok (Schemas.eq_of_entries hresult.symm), trivial, rfl⟩
  | cons entry schemas ih =>
    obtain ⟨version, schema⟩ := entry
    obtain ⟨hversion, h⟩ := invalid_of_ok h
    obtain ⟨hfields, h⟩ := invalid_of_ok h
    obtain ⟨value, hvalue, h⟩ := bind_eq_ok.mp h
    obtain ⟨encoded, hencoded, h⟩ := bind_eq_ok.mp h
    obtain ⟨hbudget, h⟩ := invalid_of_ok h
    obtain ⟨others, hothers, h⟩ := bind_eq_ok.mp h
    cases h
    have hpositive : ¬ version.toInt64 ≤ 0 :=
      toInt64_not_le_zero (fun hzero => hversion (.inl hzero)) (by omega)
    obtain ⟨next, hnext, hentries⟩ := Schemas.emplace_next hresult
    obtain ⟨hparsed, hordered, hlength⟩ := ih hothers next hentries
    refine ⟨?_, ⟨⟨trivial, schemaValue_ordered hvalue, trivial⟩, hordered⟩, by simp [hlength]⟩
    have hentry : parseEntry (.array [.int64 version.toInt64, value]) =
        .ok (version.toInt64, value) := if_neg hpositive
    unfold parseEntries
    rw [hentry]
    show (schemaFromValue value >>= _) = _
    rw [schemaFromValue_of_schemaValue hvalue, ok_bind, UInt64.toUInt64_toInt64, hnext]
    show (invalid (16384 < fields + schema.fields.length) _ >>= _) = _
    rw [invalid_of_not hfields]
    exact hparsed

/-- **The block of schemas gives back the schemas.** -/
theorem parseMetadata_of_metadata {schemas : Schemas} {payload : List UInt8}
    (h : metadata schemas = .ok payload) : parseMetadata payload = .ok schemas := by
  obtain ⟨hcount, h⟩ := invalid_of_ok h
  obtain ⟨values, hvalues, hencoded⟩ := bind_eq_ok.mp h
  obtain ⟨hparsed, hordered, hlength⟩ := parseEntries_metadataEntries hvalues .empty schemas rfl
  unfold parseMetadata
  rw [decoded_of_encodeValue (show (Value.array values).Ordered from hordered) hencoded]
  show (invalid (1024 < values.length) _ >>= _) = _
  rw [invalid_of_not (by omega)]
  exact hparsed

/-! ### Reading what was written -/

namespace PsrecReader

variable {after reader : PsrecReader}

/-- One round of the loop. -/
theorem drain_eq : reader.drain = match reader.next with
    | (.error message, _) => .error message
    | (.ok none, _) => .ok []
    | (.ok (some record), after) => after.drain >>= fun records => .ok (record :: records) := by
  rw [drain]
  split <;> simp_all only
  rfl

theorem drain_of_error {message : String} (h : reader.next = (.error message, after)) :
    reader.drain = .error message := by
  rw [drain_eq, h]

theorem drain_of_none (h : reader.next = (.ok none, after)) : reader.drain = .ok [] := by
  rw [drain_eq, h]

theorem drain_of_some {record : Record} (h : reader.next = (.ok (some record), after)) :
    reader.drain = (after.drain >>= fun records => .ok (record :: records)) := by
  rw [drain_eq, h]

/-- A reader with this much of the file ahead. -/
def ahead (schemas : Schemas) (count : UInt64) (stream : List UInt8) : PsrecReader :=
  { stream := stream, schemas := schemas, count := count }

/-- The reader may go on. -/
def Open (reader : PsrecReader) : Prop := reader.failed = false ∧ reader.finished = false

theorem next_of_ok (hopen : reader.Open) {record : Option Record}
    (h : reader.nextBlock = .ok (record, after)) : reader.next = (.ok record, after) := by
  unfold next
  rw [if_neg (by simp [hopen.1]), if_neg (by simp [hopen.2]), h]

theorem next_of_error (hopen : reader.Open) {message : String}
    (h : reader.nextBlock = .error message) :
    reader.next = (.error message, { reader with failed := true }) := by
  unfold next
  rw [if_neg (by simp [hopen.1]), if_neg (by simp [hopen.2]), h]

/-- A call takes the block in front of it. -/
theorem next_ahead {schemas : Schemas} {count : UInt64} {bytes rest : List UInt8} {block : Block}
    (hblock : (readBlock (count + 1)).Reads bytes block) {record : Option Record}
    (haccept : (ahead schemas count (bytes ++ rest)).accept block rest = .ok (record, after)) :
    (ahead schemas count (bytes ++ rest)).next = (.ok record, after) := by
  apply next_of_ok ⟨rfl, rfl⟩
  show (readBlock (count + 1) (bytes ++ rest) >>= _) = _
  rw [hblock rest]
  exact haccept

theorem accept_record {schemas : Schemas} {count : UInt64} {stream payload : List UInt8}
    {record : Record} {schema : Schema} {value : Value} (rest : List UInt8)
    (hschema : schemas.find record.schemaVersion = some schema)
    (hvalid : validateRecord schema record = .ok ()) (hcount : count ≠ 18446744073709551614)
    (hvalue : recordValue record = .ok value) (hencoded : encodeValue value limits = .ok payload) :
    (ahead schemas count stream).accept ⟨recordBlock, payload⟩ rest =
      .ok (some record, ahead schemas (count + 1) rest) := by
  have hrecord : recordBlock ≠ endBlock := by decide
  unfold accept
  rw [if_neg hrecord]
  show (decoded payload >>= _) = _
  rw [decoded_of_encodeValue (recordValue_ordered hvalid hvalue) hencoded]
  show (recordFromValue value >>= _) = _
  rw [recordFromValue_of_recordValue hvalue, ok_bind]
  dsimp only [ahead]
  rw [hschema]
  show (validateRecord schema record >>= _) = _
  rw [hvalid]
  show (invalid (count = 18446744073709551614) _ >>= _) = _
  rw [invalid_of_not hcount]
  rfl

theorem accept_end (schemas : Schemas) (count : UInt64) (stream : List UInt8) :
    (ahead schemas count stream).accept ⟨endBlock, put 8 count⟩ [] =
      .ok (none, { ahead schemas count [] with finished := true }) := by
  unfold accept
  rw [if_pos rfl, invalid_of_not]
  · rfl
  · have hget : Psrec.get (put 8 count) = count := get_put (by omega) count.toNat_lt
    simp [hget, ahead]

end PsrecReader

namespace PsrecWriter

/-- A call that does not throw was made on an open writer. -/
theorem call_eq_ok {writer after : PsrecWriter} {body : PsrecWriter → Except String PsrecWriter}
    {u : Unit} (h : writer.call body = (.ok u, after)) : body writer = .ok after := by
  unfold call at h
  split at h
  · cases h
  split at h
  · rename_i next hbody
    cases h
    exact hbody
  · cases h

/-- **What the appended records take in the file, the reader gives back as those records.** -/
theorem drain_appendAll {sizeofValue : ℕ} {writer after : PsrecWriter} {records : List Record}
    (h : writer.appendAll sizeofValue records = .ok after) :
    after.schemas = writer.schemas ∧ ∃ bytes, after.stream = writer.stream ++ bytes ∧
      ∀ rest, (PsrecReader.ahead writer.schemas writer.count (bytes ++ rest)).drain =
        ((PsrecReader.ahead writer.schemas after.count rest).drain >>=
          fun others => .ok (records ++ others)) := by
  induction records generalizing writer with
  | nil =>
    cases h
    refine ⟨rfl, [], (List.append_nil _).symm, fun rest => ?_⟩
    rw [List.nil_append]
    cases (PsrecReader.ahead after.schemas after.count rest).drain <;> rfl
  | cons record records ih =>
    unfold appendAll at h
    split at h
    · rename_i u middle happend
      have hbody := call_eq_ok happend
      unfold appendBlock at hbody
      split at hbody
      · cases hbody
      rename_i schema hschema
      obtain ⟨_, hvalid, hbody⟩ := bind_eq_ok.mp hbody
      obtain ⟨_, -, hbody⟩ := bind_eq_ok.mp hbody
      obtain ⟨hcount, hbody⟩ := invalid_of_ok hbody
      obtain ⟨value, hvalue, hbody⟩ := bind_eq_ok.mp hbody
      obtain ⟨payload, hpayload, hbody⟩ := bind_eq_ok.mp hbody
      obtain ⟨block, hblock, hbody⟩ := bind_eq_ok.mp hbody
      cases hbody
      obtain ⟨hschemas, bytes, hstream, hdrain⟩ := ih h
      refine ⟨hschemas, block ++ bytes, ?_, fun rest => ?_⟩
      · rw [hstream, List.append_assoc]
      · have hreads := readBlock_reads (by decide) hblock
        have hnext := PsrecReader.next_ahead hreads
          (PsrecReader.accept_record (bytes ++ rest) hschema hvalid hcount hvalue hpayload)
        rw [List.append_assoc, PsrecReader.drain_of_some hnext, hdrain rest]
        cases (PsrecReader.ahead writer.schemas after.count rest).drain <;> rfl
    · cases h

/-- **A written file reads as what was written.** -/
theorem readFile_of_writeFile {sizeofValue : ℕ} {schemas : Schemas} {records : List Record}
    {file : List UInt8} (h : writeFile sizeofValue schemas records = .ok file) :
    PsrecReader.readFile file = .ok (schemas, records) := by
  obtain ⟨opened, hconstruct, h⟩ := bind_eq_ok.mp h
  obtain ⟨payload, hmetadata, hconstruct⟩ := bind_eq_ok.mp hconstruct
  obtain ⟨first, hfirst, hconstruct⟩ := bind_eq_ok.mp hconstruct
  cases hconstruct
  obtain ⟨written, hwritten, h⟩ := bind_eq_ok.mp h
  obtain ⟨hschemas, bytes, hstream, hdrain⟩ := drain_appendAll hwritten
  split at h
  · rename_i u finished hfinish
    cases h
    obtain ⟨last, hlast, hfinish⟩ := bind_eq_ok.mp (call_eq_ok hfinish)
    cases hfinish
    have hend := PsrecReader.next_ahead (readBlock_reads (by decide) hlast)
      (PsrecReader.accept_end schemas written.count (last ++ []))
    have hrest := hdrain (last ++ [])
    rw [PsrecReader.drain_of_none hend] at hrest
    have hopen : PsrecReader.construct ((header ++ first ++ bytes) ++ (last ++ [])) =
        .ok (PsrecReader.ahead schemas 0 (bytes ++ (last ++ []))) := by
      have hheader := take "psrec truncated or unreadable" header
        (first ++ (bytes ++ (last ++ [])))
      rw [List.append_assoc, List.append_assoc]
      show (read header.length (header ++ _) >>= _) = _
      unfold Psrec.read
      rw [hheader]
      show (readBlock 0 (first ++ (bytes ++ (last ++ []))) >>= _) = _
      rw [readBlock_reads (by decide) hfirst]
      show (parseMetadata payload >>= _) = _
      rw [parseMetadata_of_metadata hmetadata]
      rfl
    show PsrecReader.readFile (written.stream ++ last) = _
    rw [hstream, ← List.append_nil last]
    unfold PsrecReader.readFile
    rw [hopen]
    show ((PsrecReader.ahead schemas 0 (bytes ++ (last ++ []))).drain >>= _) = _
    rw [hrest]
    show Except.ok (schemas, records ++ []) = _
    rw [List.append_nil]
  · cases h

end PsrecWriter

/-! ### Accepted files that go on -/

namespace PsrecReader

/-- A block that is not the last does not look at what follows it. -/
theorem accept_more {reader after : PsrecReader} {block : Block} {rest : List UInt8}
    {record : Record} (h : reader.accept block rest = .ok (some record, after))
    (stream more : List UInt8) :
    { reader with stream := stream }.accept block (rest ++ more) =
      .ok (some record, { after with stream := after.stream ++ more }) := by
  have hafter := accept_eq_some h
  unfold accept at h ⊢
  split_ifs at h ⊢ with htype
  · obtain ⟨_, h⟩ := invalid_of_ok h
    cases h
  · obtain ⟨hrecord, h⟩ := invalid_of_ok h
    obtain ⟨value, hvalue, h⟩ := bind_eq_ok.mp h
    obtain ⟨decodedRecord, hdecoded, h⟩ := bind_eq_ok.mp h
    split at h
    · cases h
    rename_i schema hschema
    obtain ⟨_, hvalid, h⟩ := bind_eq_ok.mp h
    obtain ⟨hcount, h⟩ := invalid_of_ok h
    cases h
    rw [invalid_of_not hrecord]
    show (decoded block.payload >>= _) = _
    rw [hvalue]
    show (recordFromValue value >>= _) = _
    rw [hdecoded, ok_bind, hschema]
    show (validateRecord schema record >>= _) = _
    rw [hvalid]
    show (invalid (reader.count = 18446744073709551614) _ >>= _) = _
    rw [invalid_of_not hcount]
    rfl

/-- The last block is refused with anything after it. -/
theorem accept_end_more {reader after : PsrecReader} {block : Block} {rest : List UInt8}
    (h : reader.accept block rest = .ok (none, after)) {more : List UInt8} (hmore : more ≠ [])
    (stream : List UInt8) :
    { reader with stream := stream }.accept block (rest ++ more) =
      .error "invalid psrec footer or trailing data" := by
  unfold accept at h ⊢
  split_ifs at h ⊢ with htype
  · have hrefused : (invalid (block.payload.length ≠ 8 ∨ Psrec.get block.payload ≠ reader.count ∨
        rest ++ more ≠ []) "invalid psrec footer or trailing data") =
        .error "invalid psrec footer or trailing data" := by
      apply if_pos
      refine .inr (.inr fun hempty => hmore ?_)
      exact (List.append_eq_nil_iff.mp hempty).2
    rw [hrefused]
    rfl
  · obtain ⟨_, h⟩ := invalid_of_ok h
    obtain ⟨value, _, h⟩ := bind_eq_ok.mp h
    obtain ⟨record, _, h⟩ := bind_eq_ok.mp h
    split at h
    · cases h
    · obtain ⟨_, _, h⟩ := bind_eq_ok.mp h
      obtain ⟨_, h⟩ := invalid_of_ok h
      cases h

theorem nextBlock_more {reader : PsrecReader} {block : Block} {rest : List UInt8}
    (h : readBlock (reader.count + 1) reader.stream = .ok (block, rest)) (more : List UInt8) :
    { reader with stream := reader.stream ++ more }.nextBlock =
      { reader with stream := reader.stream ++ more }.accept block (rest ++ more) := by
  show (readBlock (reader.count + 1) (reader.stream ++ more) >>= _) = _
  rw [readBlock_extends _ _ _ _ h more]
  rfl

/-- **A stream that is accepted as complete is refused when it goes on.** -/
theorem drain_more {more : List UInt8} (hmore : more ≠ []) (reader : PsrecReader)
    (hopen : reader.Open) (records : List Record)
    (h : reader.drain = .ok records) :
    ∃ message, { reader with stream := reader.stream ++ more }.drain = .error message := by
  induction hlength : reader.stream.length using Nat.strong_induction_on
    generalizing reader records with
  | _ length ih =>
    have hopenMore : { reader with stream := reader.stream ++ more }.Open := hopen
    cases hnextBlock : reader.nextBlock with
    | error message =>
      rw [drain_of_error (next_of_error hopen hnextBlock)] at h
      cases h
    | ok result =>
      obtain ⟨found, after⟩ := result
      have hnext := next_of_ok hopen hnextBlock
      obtain ⟨⟨block, rest⟩, hread, haccept⟩ := bind_eq_ok.mp hnextBlock
      have hmoreBlock := nextBlock_more hread more
      cases found with
      | none =>
        rw [accept_end_more haccept hmore] at hmoreBlock
        exact ⟨_, drain_of_error (next_of_error hopenMore hmoreBlock)⟩
      | some record =>
        rw [accept_more haccept] at hmoreBlock
        rw [drain_of_some hnext] at h
        obtain ⟨others, hothers, h⟩ := bind_eq_ok.mp h
        have hshorter : after.stream.length < length := hlength ▸ next_length hnext
        have hafterOpen : after.Open := by
          rw [accept_eq_some haccept]
          exact hopen
        obtain ⟨message, hmessage⟩ := ih _ hshorter after hafterOpen others hothers rfl
        refine ⟨message, ?_⟩
        rw [drain_of_some (next_of_ok hopenMore hmoreBlock), hmessage]
        rfl

/-- **Of two accepted files none is a proper beginning of the other.** -/
theorem readFile_more {bytes more : List UInt8} (hmore : more ≠ [])
    {result : Schemas × List Record} (h : readFile bytes = .ok result) :
    ∃ message, readFile (bytes ++ more) = .error message := by
  obtain ⟨reader, hconstruct, h⟩ := bind_eq_ok.mp h
  obtain ⟨records, hdrain, h⟩ := bind_eq_ok.mp h
  obtain ⟨⟨signature, afterHeader⟩, hsignature, hconstruct⟩ := bind_eq_ok.mp hconstruct
  obtain ⟨hheader, hconstruct⟩ := invalid_of_ok hconstruct
  obtain ⟨⟨block, rest⟩, hblock, hconstruct⟩ := bind_eq_ok.mp hconstruct
  obtain ⟨htype, hconstruct⟩ := invalid_of_ok hconstruct
  obtain ⟨schemas, hschemas, hconstruct⟩ := bind_eq_ok.mp hconstruct
  cases hconstruct
  have hopen : construct (bytes ++ more) = .ok { stream := rest ++ more, schemas := schemas } := by
    unfold construct Psrec.read
    rw [ByteReader.Extends.take _ _ _ _ _ hsignature more]
    show (invalid (signature ≠ header) _ >>= _) = _
    rw [invalid_of_not hheader]
    show (readBlock 0 (afterHeader ++ more) >>= _) = _
    rw [readBlock_extends 0 _ _ _ hblock more]
    show (invalid (block.type ≠ metadataBlock) _ >>= _) = _
    rw [invalid_of_not htype]
    show (parseMetadata block.payload >>= _) = _
    rw [hschemas]
    rfl
  obtain ⟨message, hmessage⟩ := drain_more hmore _ ⟨rfl, rfl⟩ records hdrain
  refine ⟨message, ?_⟩
  unfold readFile
  rw [hopen]
  show (PsrecReader.drain { stream := rest ++ more, schemas := schemas } >>= _) = _
  rw [hmessage]
  rfl

end PsrecReader

/-! ### The format -/

/-- **A record file reads as what was written, and nothing shorter or longer is accepted.** -/
theorem readFile_exact {sizeofValue : ℕ} {schemas : Schemas} {records : List Record}
    {file : List UInt8} (h : PsrecWriter.writeFile sizeofValue schemas records = .ok file) :
    PsrecReader.readFile file = .ok (schemas, records) ∧
      (∀ cut lost, file = cut ++ lost → lost ≠ [] →
        ∃ message, PsrecReader.readFile cut = .error message) ∧
      ∀ extra, extra ≠ [] → ∃ message, PsrecReader.readFile (file ++ extra) = .error message := by
  have hfile := PsrecWriter.readFile_of_writeFile h
  refine ⟨hfile, fun cut lost hcut hlost => ?_, fun extra hextra => ?_⟩
  · cases hread : PsrecReader.readFile cut with
    | error message => exact ⟨message, rfl⟩
    | ok result =>
      obtain ⟨message, hmessage⟩ := PsrecReader.readFile_more hlost hread
      rw [← hcut, hfile] at hmessage
      cases hmessage
  · exact PsrecReader.readFile_more hextra hfile

/-- One data set, with one field. -/
def sampleSchemas : Schemas where
  entries := [(1, { dataset := text "d", fields := [{ name := text "v", type := .int64 }] })]

def sampleRecord : Record where
  protocol := text "p"
  dataset := text "d"
  device := []
  schemaVersion := 1
  values := [.int64 5]

theorem readFile_exact_sample :
    ∃ file, PsrecWriter.writeFile 56 sampleSchemas [sampleRecord] = .ok file ∧
      PsrecReader.readFile file = .ok (sampleSchemas, [sampleRecord]) ∧
      ∃ message, PsrecReader.readFile (file ++ [0]) = .error message := by
  have hwritten : (PsrecWriter.writeFile 56 sampleSchemas [sampleRecord]).isOk = true := by
    decide +kernel
  cases hfile : PsrecWriter.writeFile 56 sampleSchemas [sampleRecord] with
  | error message =>
    rw [hfile] at hwritten
    cases hwritten
  | ok file =>
    obtain ⟨hread, -, hextra⟩ := readFile_exact hfile
    exact ⟨file, rfl, hread, hextra [0] (by decide)⟩

end ProtoScope.Data
