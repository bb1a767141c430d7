/-
What the look for a byte-order mark does to the rows behind it.

The reader holds back up to three bytes of a stream that begins like a byte-order mark and
gives them to the state machine before the stream.  The end of a line is looked for in the
stream alone, behind whatever is still held back: after a carriage return that is not the
last byte held back, the reader sees the fourth byte of the stream where the next one is
meant.  Everywhere else it is the plain state machine over the whole stream.
-/
import ProtoScope.Data.Csv

namespace ProtoScope.Data

namespace CsvRowReader

/-! ### The plain state machine -/

/-- What is left of the bytes behind a carriage return. -/
def dropLineFeed : List UInt8 → List UInt8
  | [] => []
  | ch :: bytes => if ch = lineFeed then bytes else ch :: bytes

/-- A row of the plain state machine, which has all bytes in front of it and holds back none,
with what it leaves of them. -/
def plainRow (maxBytes maxFields : ℕ) :
    List UInt8 → Row → Except String (Option (List Text) × List UInt8)
  | [], row =>
    if row.state = .quoted then .error "CSV unclosed quote"
    else if row.bytes = 0 then .ok (none, [])
    else do
      let row ← row.finish maxFields
      return (some row.fields, [])
  | ch :: bytes, row =>
    if maxBytes < row.bytes + 1 then .error "CSV row byte limit exceeded"
    else if row.state = .quoted then
      if ch = quote then
        plainRow maxBytes maxFields bytes { row with bytes := row.bytes + 1, state := .closed }
      else
        plainRow maxBytes maxFields bytes
          { row with bytes := row.bytes + 1, value := row.value ++ [ch] }
    else if row.state = .closed ∧ ch = quote then
      plainRow maxBytes maxFields bytes
        { row with bytes := row.bytes + 1, value := row.value ++ [ch], state := .quoted }
    else if ch = comma then do
      let row ← { row with bytes := row.bytes + 1 }.finish maxFields
      plainRow maxBytes maxFields bytes row
    else if ch = lineFeed ∨ ch = carriageReturn then do
      let row ← { row with bytes := row.bytes + 1 }.finish maxFields
      return (some row.fields, if ch = carriageReturn then dropLineFeed bytes else bytes)
    else if row.state = .closed ∨ ch = quote ∧ row.state ≠ .start then
      .error "CSV misplaced quote"
    else if ch = quote then
      plainRow maxBytes maxFields bytes { row with bytes := row.bytes + 1, state := .quoted }
    else
      plainRow maxBytes maxFields bytes
        { row with bytes := row.bytes + 1, value := row.value ++ [ch], state := .unquoted }

/-- What a call gives: a row together with the bytes that are still to be read, the end, or
an error. -/
abbrev Reading := Except String (Option (List Text × List UInt8))

/-- The first calls of the plain machine; after an error every call fails. -/
def plainReadings (maxBytes maxFields : ℕ) : ℕ → List UInt8 → List Reading
  | 0, _ => []
  | calls + 1, bytes =>
    match plainRow maxBytes maxFields bytes {} with
    | .ok (some row, rest) => .ok (some (row, rest)) :: plainReadings maxBytes maxFields calls rest
    | .ok (none, rest) => .ok none :: plainReadings maxBytes maxFields calls rest
    | .error message => .error message :: List.replicate calls (.error "CSV reader has failed")

/-- The bytes a reader has still to read. -/
def bytesAhead (reader : CsvRowReader) : List UInt8 := reader.held ++ reader.stream

/-- The first calls of a reader. -/
def readings : ℕ → CsvRowReader → List Reading
  | 0, _ => []
  | calls + 1, reader =>
    match reader.next with
    | (.ok (some row), after) => .ok (some (row, after.bytesAhead)) :: readings calls after
    | (.ok none, after) => .ok none :: readings calls after
    | (.error message, after) => .error message :: readings calls after

/-- The row of a reading, without what it leaves to read. -/
def Reading.row (reading : Reading) : Except String (Option (List Text)) :=
  reading.map fun delivered => delivered.map (·.1)

/-! ### Where the reader is the plain machine -/

/-- A reader that has these bytes ahead, and no carriage return among those it holds back
unless it is the last of them. -/
structure Stands (maxBytes maxFields : ℕ) (bytes : List UInt8) (reader : CsvRowReader) : Prop where
  ahead : reader.bytesAhead = bytes
  held : carriageReturn ∉ reader.held.dropLast
  maxBytes : reader.maxBytes = maxBytes
  maxFields : reader.maxFields = maxFields
  failed : reader.failed = false

section Simulation

variable {maxBytes maxFields : ℕ} {bytes : List UInt8} {reader : CsvRowReader}

theorem Stands.get_nil (h : Stands maxBytes maxFields [] reader) : reader.get = none := by
  obtain ⟨hheld, hstream⟩ := List.append_eq_nil_iff.mp h.ahead
  unfold get
  rw [hheld, hstream]

theorem Stands.get_cons {ch : UInt8} (h : Stands maxBytes maxFields (ch :: bytes) reader) :
    ∃ after, reader.get = some (ch, after) ∧ Stands maxBytes maxFields bytes after ∧
      (ch = carriageReturn → after.held = []) := by
  obtain ⟨held, stream, _, _, _⟩ := reader
  obtain ⟨hahead, hheld, rfl, rfl, rfl⟩ := h
  cases held with
  | nil =>
    cases hahead
    refine ⟨_, rfl, ⟨rfl, hheld, rfl, rfl, rfl⟩, ?_⟩
    intro _
    rfl
  | cons c held =>
    cases hahead
    refine ⟨_, rfl, ⟨rfl, ?_, rfl, rfl, rfl⟩, ?_⟩
    · intro hmem
      cases held with
      | nil => cases hmem
      | cons c' held => exact hheld (List.mem_cons_of_mem _ hmem)
    · intro hch
      cases held with
      | nil => rfl
      | cons c' held =>
        rw [hch] at hheld
        exact absurd List.mem_cons_self hheld

theorem Stands.skipLineFeed (h : Stands maxBytes maxFields bytes reader) (hheld : reader.held = []) :
    Stands maxBytes maxFields (dropLineFeed bytes) reader.skipLineFeed := by
  obtain ⟨held, stream, _, _, _⟩ := reader
  obtain ⟨hahead, -, rfl, rfl, rfl⟩ := h
  cases hheld
  cases hahead
  cases stream with
  | nil => exact ⟨rfl, List.not_mem_nil, rfl, rfl, rfl⟩
  | cons ch stream =>
    unfold CsvRowReader.skipLineFeed dropLineFeed
    dsimp only [bytesAhead, List.nil_append]
    by_cases hch : ch = lineFeed
    · rw [if_pos hch, if_pos hch]
      exact ⟨rfl, List.not_mem_nil, rfl, rfl, rfl⟩
    · rw [if_neg hch, if_neg hch]
      exact ⟨rfl, List.not_mem_nil, rfl, rfl, rfl⟩

/-- The reader and the plain machine give the same row, and stand at the same byte after it. -/
inductive Agree (maxBytes maxFields : ℕ) :
    Except String (Option (List Text) × CsvRowReader) →
      Except String (Option (List Text) × List UInt8) → Prop where
  | error (message : String) : Agree maxBytes maxFields (.error message) (.error message)
  | row (row : Option (List Text)) {rest : List UInt8} {after : CsvRowReader}
      (h : Stands maxBytes maxFields rest after) : Agree maxBytes maxFields (.ok (row, after)) (.ok (row, rest))

theorem Agree.finish (row : Row) (maxBytes : ℕ)
    {next : Row → Except String (Option (List Text) × CsvRowReader)}
    {plain : Row → Except String (Option (List Text) × List UInt8)}
    (h : ∀ row, Agree maxBytes maxFields (next row) (plain row)) :
    Agree maxBytes maxFields (row.finish maxFields >>= next) (row.finish maxFields >>= plain) := by
  cases hfinish : row.finish maxFields with
  | error message => exact .error message
  | ok row => exact h row

/-- **A reader in such a place reads a row as the plain machine does.**  Induction over the
bytes: a byte is taken from what is held back or from the stream, and behind a carriage return
nothing is held back any more. -/
theorem Stands.readRow (h : Stands maxBytes maxFields bytes reader) (row : Row) :
    Agree maxBytes maxFields (reader.readRow row) (plainRow maxBytes maxFields bytes row) := by
  induction bytes generalizing reader row with
  | nil =>
    have hget := h.get_nil
    rw [CsvRowReader.readRow, plainRow]
    split
    · by_cases hquoted : row.state = .quoted
      · rw [if_pos hquoted, if_pos hquoted]
        exact .error _
      · rw [if_neg hquoted, if_neg hquoted]
        by_cases hbytes : row.bytes = 0
        · rw [if_pos hbytes, if_pos hbytes]
          exact .row none h
        · rw [if_neg hbytes, if_neg hbytes, h.maxFields]
          apply Agree.finish
          intro row
          exact .row _ h
    · rename_i hsome
      rw [hget] at hsome
      cases hsome
  | cons ch bytes ih =>
    obtain ⟨after, hget, hafter, hheld⟩ := h.get_cons
    rw [CsvRowReader.readRow, plainRow]
    split
    · rename_i hnone
      rw [hget] at hnone
      cases hnone
    · rename_i c after' hsome
      obtain ⟨rfl, rfl⟩ : ch = c ∧ after = after' := by
        rw [hget] at hsome
        cases hsome
        exact ⟨rfl, rfl⟩
      dsimp only
      rw [h.maxBytes, h.maxFields]
      split
      · exact .error _
      · split
        · split
          · exact ih hafter _
          · exact ih hafter _
        · split
          · exact ih hafter _
          · split
            · apply Agree.finish
              intro row
              exact ih hafter row
            · split
              · apply Agree.finish
                intro row
                apply Agree.row
                split
                · rename_i hreturn
                  exact hafter.skipLineFeed (hheld hreturn)
                · exact hafter
              · split
                · exact .error _
                · split
                  · exact ih hafter _
                  · exact ih hafter _

/-- The calls after an error all fail. -/
theorem readings_failed (hfailed : reader.failed = true) (calls : ℕ) :
    readings calls reader = List.replicate calls (.error "CSV reader has failed") := by
  induction calls with
  | zero => rfl
  | succ calls ih =>
    have hnext : reader.next = (.error "CSV reader has failed", reader) := if_pos hfailed
    rw [readings, hnext]
    dsimp only
    rw [ih]
    rfl

/-- **From such a place on every call agrees with the plain machine.** -/
theorem Stands.readings (h : Stands maxBytes maxFields bytes reader) (calls : ℕ) :
    readings calls reader = plainReadings maxBytes maxFields calls bytes := by
  induction calls generalizing bytes reader with
  | zero => rfl
  | succ calls ih =>
    have hrow := h.readRow {}
    rw [CsvRowReader.readings, plainReadings]
    unfold next
    rw [h.failed, if_neg Bool.false_ne_true]
    generalize reader.readRow {} = result at hrow ⊢
    generalize plainRow maxBytes maxFields bytes {} = plain at hrow ⊢
    cases hrow with
    | error message =>
      dsimp only
      rw [readings_failed rfl]
    | row row hafter =>
      cases row with
      | none =>
        dsimp only
        rw [ih hafter]
      | some fields =>
        dsimp only
        rw [ih hafter, hafter.ahead]

end Simulation

/-! ### The one place where it is not -/

/-- A stream that begins like a byte-order mark with a carriage return as its second byte; a
third byte is held back with it. -/
def HoldsReturn (stream : List UInt8) (third : UInt8) (rest : List UInt8) : Prop :=
  stream = 0xEF :: carriageReturn :: third :: rest

section Construct

variable {maxBytes maxFields : ℕ} {stream : List UInt8} {reader : CsvRowReader}

theorem constructWithin_eq (h : constructWithin maxBytes maxFields stream = .ok reader) :
    0 < maxBytes ∧ 0 < maxFields ∧
      reader = { construct stream with maxBytes := maxBytes, maxFields := maxFields } := by
  obtain ⟨hlimits, h⟩ := invalid_of_ok h
  cases h
  exact ⟨by omega, by omega, rfl⟩

/-- Every other reader begins at such a place. -/
theorem construct_stands (hmark : stream.take 3 ≠ byteOrderMark)
    (hreturn : ∀ third rest, ¬ HoldsReturn stream third rest) :
    Stands maxBytes maxFields stream
      { construct stream with maxBytes := maxBytes, maxFields := maxFields } := by
  unfold construct
  by_cases hfirst : stream.head? = some 0xEF
  · rw [if_pos hfirst, if_neg hmark]
    refine ⟨List.take_append_drop 3 stream, ?_, rfl, rfl, rfl⟩
    dsimp only
    intro hmem
    cases stream with
    | nil => cases hmem
    | cons first stream =>
      cases hfirst
      cases stream with
      | nil => cases hmem
      | cons second stream =>
        cases stream with
        | nil =>
          simp [carriageReturn] at hmem
        | cons third rest =>
          simp only [List.take_succ_cons, List.take_zero, List.dropLast_cons_cons,
            List.dropLast_singleton, List.mem_cons, List.not_mem_nil, or_false] at hmem
          rcases hmem with hmem | rfl
          · cases hmem
          · exact hreturn third rest rfl
  · rw [if_neg hfirst]
    exact ⟨rfl, List.not_mem_nil, rfl, rfl, rfl⟩

theorem cons_dropLineFeed {third : UInt8} {rest : List UInt8} :
    third :: dropLineFeed rest = dropLineFeed (third :: rest) ↔
      (third = lineFeed ↔ rest.head? = some lineFeed) := by
  rw [dropLineFeed]
  cases rest with
  | nil =>
    by_cases hthird : third = lineFeed
    · simp [hthird, dropLineFeed]
    · simp [hthird, dropLineFeed]
  | cons ch rest =>
    rw [dropLineFeed]
    by_cases hthird : third = lineFeed <;> by_cases hch : ch = lineFeed
    · simp [hthird, hch]
    · simp [hthird, hch]
    · simp [hthird, hch]
    · simp [hthird, hch]

theorem construct_return (third : UInt8) (rest : List UInt8) :
    { construct (0xEF :: carriageReturn :: third :: rest) with
        maxBytes := maxBytes, maxFields := maxFields } =
      ({ held := [0xEF, carriageReturn, third], stream := rest, maxBytes := maxBytes,
         maxFields := maxFields } : CsvRowReader) :=
  rfl

/-- The reader behind the first row: the third byte is still held back, the fourth may be gone. -/
def behindReturn (maxBytes maxFields : ℕ) (third : UInt8) (rest : List UInt8) : CsvRowReader :=
  { held := [third], stream := dropLineFeed rest, maxBytes := maxBytes, maxFields := maxFields }

theorem behindReturn_stands (third : UInt8) (rest : List UInt8) :
    Stands maxBytes maxFields (third :: dropLineFeed rest)
      (behindReturn maxBytes maxFields third rest) :=
  ⟨rfl, List.not_mem_nil, rfl, rfl, rfl⟩

end Construct

section FirstRow

variable {maxBytes maxFields : ℕ} {reader after behind : CsvRowReader} {ch : UInt8} {row : Row}

/-- A character that goes into the cell as it is. -/
theorem readRow_ordinary (hget : reader.get = some (ch, after)) (hstate : row.state = .start)
    (hbytes : row.bytes < reader.maxBytes)
    (hch : ch ∉ [comma, quote, lineFeed, carriageReturn]) :
    reader.readRow row = after.readRow
      { row with bytes := row.bytes + 1, value := row.value ++ [ch], state := .unquoted } := by
  simp only [List.mem_cons, List.not_mem_nil, or_false, not_or] at hch
  obtain ⟨hcomma, hquote, hlineFeed, hcarriageReturn⟩ := hch
  rw [readRow]
  split
  · rename_i hnone
    rw [hget] at hnone
    cases hnone
  · rename_i c after' hsome
    rw [hget] at hsome
    cases hsome
    simp [hstate, Nat.not_lt.mpr hbytes, hcomma, hquote, hlineFeed, hcarriageReturn]

theorem readRow_carriageReturn (hget : reader.get = some (carriageReturn, after))
    (hstate : row.state = .unquoted) (hbytes : row.bytes < reader.maxBytes)
    (hfields : row.fields.length < reader.maxFields) :
    reader.readRow row = .ok (some (row.fields ++ [row.value]), after.skipLineFeed) := by
  rw [readRow]
  split
  · rename_i hnone
    rw [hget] at hnone
    cases hnone
  · rename_i c after' hsome
    rw [hget] at hsome
    cases hsome
    simp [hstate, Nat.not_lt.mpr hbytes, comma, quote, lineFeed, carriageReturn]
    unfold Row.finish
    rw [invalid_of_not (Nat.not_le.mpr hfields)]
    rfl

theorem readRow_first (hfirst : reader.get = some (0xEF, after))
    (hsecond : after.get = some (carriageReturn, behind)) (hbytes : 2 ≤ reader.maxBytes)
    (hafter : 2 ≤ after.maxBytes) (hfields : 0 < after.maxFields) :
    reader.readRow {} = .ok (some [[0xEF]], behind.skipLineFeed) := by
  rw [readRow_ordinary hfirst rfl (by show 0 < _; omega) (by decide)]
  exact readRow_carriageReturn hsecond rfl hafter hfields

/-- A row that may have one byte only ends in an error at the second. -/
theorem readRow_limit (hfirst : reader.get = some (0xEF, after))
    (hsecond : after.get = some (carriageReturn, behind)) (hbytes : reader.maxBytes = 1)
    (hafter : after.maxBytes = 1) :
    reader.readRow {} = .error "CSV row byte limit exceeded" := by
  rw [readRow_ordinary hfirst rfl (by rw [hbytes]; exact Nat.zero_lt_one) (by decide), readRow]
  split
  · rename_i hnone
    rw [hsecond] at hnone
    cases hnone
  · rw [hafter]
    exact if_pos (by show 1 < 0 + 1 + 1; omega)

end FirstRow

section Rows

variable {maxBytes maxFields : ℕ}

/-- The plain machine is a reader that holds nothing back. -/
theorem plain_stands (bytes : List UInt8) :
    Stands maxBytes maxFields bytes
      { stream := bytes, maxBytes := maxBytes, maxFields := maxFields } :=
  ⟨rfl, List.not_mem_nil, rfl, rfl, rfl⟩

theorem plainRow_eq (bytes : List UInt8) :
    plainRow maxBytes maxFields bytes {} =
      (readRow { stream := bytes, maxBytes := maxBytes, maxFields := maxFields } {}).map
        fun read => (read.1, read.2.bytesAhead) := by
  have hagree := (plain_stands bytes : Stands maxBytes maxFields bytes _).readRow {}
  generalize plainRow maxBytes maxFields bytes {} = plain at hagree ⊢
  generalize readRow _ {} = read at hagree ⊢
  cases hagree with
  | error message => rfl
  | row row hafter =>
    rw [← hafter.ahead]
    rfl

/-! ### Where it is not, the place is lost -/

/-- The calls of a reader that holds back a carriage return: the first row is right, and the
next ones are those of the plain machine from the place that the reader believes in. -/
theorem readings_return (hbytes : 2 ≤ maxBytes) (hfields : 0 < maxFields) (third : UInt8)
    (rest : List UInt8) (calls : ℕ) :
    readings (calls + 1) { construct (0xEF :: carriageReturn :: third :: rest) with
        maxBytes := maxBytes, maxFields := maxFields } =
      .ok (some ([[0xEF]], third :: dropLineFeed rest)) ::
        plainReadings maxBytes maxFields calls (third :: dropLineFeed rest) := by
  have hstands : Stands maxBytes maxFields _ _ := behindReturn_stands third rest
  have hskip : skipLineFeed
      { held := [third], stream := rest, maxBytes := maxBytes, maxFields := maxFields } =
        behindReturn maxBytes maxFields third rest := by
    cases rest with
    | nil => rfl
    | cons ch rest =>
      unfold skipLineFeed behindReturn dropLineFeed
      dsimp only
      split
      · rfl
      · rfl
  rw [construct_return, readings]
  unfold next
  rw [if_neg Bool.false_ne_true, readRow_first rfl rfl hbytes hbytes hfields, hskip]
  dsimp only
  rw [hstands.readings, hstands.ahead]

theorem plainReadings_return (hbytes : 2 ≤ maxBytes) (hfields : 0 < maxFields)
    (bytes : List UInt8) (calls : ℕ) :
    plainReadings maxBytes maxFields (calls + 1) (0xEF :: carriageReturn :: bytes) =
      .ok (some ([[0xEF]], dropLineFeed bytes)) ::
        plainReadings maxBytes maxFields calls (dropLineFeed bytes) := by
  have hstands : Stands maxBytes maxFields _ _ := (plain_stands bytes).skipLineFeed rfl
  have hrow : plainRow maxBytes maxFields (0xEF :: carriageReturn :: bytes) {} = _ :=
    (plainRow_eq _).trans
      (congrArg _ (readRow_first rfl rfl hbytes hbytes hfields))
  rw [plainReadings, hrow]
  dsimp only [Except.map]
  rw [hstands.ahead]

theorem plainReadings_lineFeed (hbytes : 0 < maxBytes) (hfields : 0 < maxFields)
    (bytes : List UInt8) (calls : ℕ) :
    plainReadings maxBytes maxFields (calls + 1) (lineFeed :: bytes) =
      .ok (some ([[]], bytes)) :: plainReadings maxBytes maxFields calls bytes := by
  have hrow : plainRow maxBytes maxFields (lineFeed :: bytes) {} = .ok (some [[]], bytes) := by
    rw [plainRow, if_neg (by show ¬ maxBytes < 0 + 1; omega), if_neg (by decide),
      if_neg (by decide), if_neg (by decide), if_pos (.inl rfl)]
    unfold Row.finish
    rw [invalid_of_not (by show ¬ maxFields ≤ 0; omega)]
    rfl
  rw [plainReadings, hrow]

theorem dropLineFeed_length (bytes : List UInt8) : (dropLineFeed bytes).length ≤ bytes.length := by
  cases bytes with
  | nil => exact Nat.le_refl _
  | cons ch bytes =>
    rw [dropLineFeed]
    split
    · exact Nat.le_succ _
    · exact Nat.le_refl _

theorem finish_bytes {row finished : Row} (h : row.finish maxFields = .ok finished) :
    finished.bytes = row.bytes := by
  obtain ⟨-, h⟩ := invalid_of_ok h
  cases h
  rfl

/-- A row takes at least one byte. -/
theorem plainRow_shorter {bytes rest : List UInt8} {row : Row} {fields : List Text}
    (h : plainRow maxBytes maxFields bytes row = .ok (some fields, rest)) :
    rest.length < bytes.length + row.bytes := by
  induction bytes generalizing row with
  | nil =>
    rw [plainRow] at h
    split at h
    · cases h
    · split at h
      · cases h
      · obtain ⟨_, -, h⟩ := bind_eq_ok.mp h
        cases h
        simp only [List.length_nil]
        omega
  | cons ch bytes ih =>
    have hnext : ∀ {next : Row}, next.bytes = row.bytes + 1 →
        plainRow maxBytes maxFields bytes next = .ok (some fields, rest) →
        rest.length < (ch :: bytes).length + row.bytes := by
      intro next hbytes hnext
      have := ih hnext
      rw [List.length_cons]
      omega
    rw [plainRow] at h
    split at h
    · cases h
    · split at h
      · split at h
        · exact hnext rfl h
        · exact hnext rfl h
      · split at h
        · exact hnext rfl h
        · split at h
          · obtain ⟨next, hfinish, h⟩ := bind_eq_ok.mp h
            exact hnext (finish_bytes hfinish) h
          · split at h
            · obtain ⟨_, -, h⟩ := bind_eq_ok.mp h
              cases h
              rw [List.length_cons]
              split
              · have := dropLineFeed_length bytes
                omega
              · omega
            · split at h
              · cases h
              · split at h
                · exact hnext rfl h
                · exact hnext rfl h

/-- A stream ends after fewer rows than it has bytes. -/
theorem plainReadings_ends (fields : List Text) {calls : ℕ} {bytes : List UInt8}
    (h : bytes.length < calls) :
    (plainReadings maxBytes maxFields calls bytes).map Reading.row ≠
      List.replicate calls (.ok (some fields)) := by
  induction calls generalizing bytes with
  | zero => omega
  | succ calls ih =>
    rw [plainReadings, List.replicate_succ]
    split
    · rename_i row rest hrow
      have hshorter := plainRow_shorter hrow
      intro heq
      rw [List.map_cons, List.cons.injEq] at heq
      exact ih (by simp only [Nat.add_zero] at hshorter; omega) heq.2
    · intro heq
      cases heq
    · intro heq
      cases heq

/-- A line end that is read as an empty row shows in the rows: there is one too many. -/
theorem rows_differ (hbytes : 0 < maxBytes) (hfields : 0 < maxFields) (rest : List UInt8) :
    ∃ calls, (plainReadings maxBytes maxFields calls (lineFeed :: rest)).map Reading.row ≠
      (plainReadings maxBytes maxFields calls rest).map Reading.row := by
  by_contra hall
  push Not at hall
  have hsame : ∀ calls, (plainReadings maxBytes maxFields calls rest).map Reading.row =
      List.replicate calls (.ok (some [[]])) := by
    intro calls
    induction calls with
    | zero => rfl
    | succ calls ih =>
      rw [← hall (calls + 1), plainReadings_lineFeed hbytes hfields, List.map_cons, ih]
      rfl
  exact plainReadings_ends [[]] (Nat.lt_succ_self rest.length) (hsame _)

end Rows

/-! ### The look for a byte-order mark -/

/-- The second byte held back is a carriage return, and of the two bytes behind it one is a
line feed and the other is not. -/
def LosesPlace (stream : List UInt8) : Prop :=
  ∃ third rest, HoldsReturn stream third rest ∧ ¬ (third = lineFeed ↔ rest.head? = some lineFeed)

/-- **The look for a byte-order mark changes nothing for what follows, except where the place
is lost.**  Every call gives the row of the plain state machine and leaves the same bytes to be
read, for every stream but those; a line feed that belongs to the first line end is moreover
read as a row of its own. -/
theorem look_ahead_harmless_iff {maxBytes maxFields : ℕ} {stream : List UInt8}
    {reader : CsvRowReader} (h : constructWithin maxBytes maxFields stream = .ok reader)
    (hmark : stream.take 3 ≠ byteOrderMark) :
    ((∀ calls, readings calls reader = plainReadings maxBytes maxFields calls stream) ↔
        (LosesPlace stream → maxBytes = 1)) ∧
      (∀ rest, HoldsReturn stream lineFeed rest → rest.head? ≠ some lineFeed → maxBytes ≠ 1 →
        ∃ calls, (readings calls reader).map Reading.row ≠
          (plainReadings maxBytes maxFields calls stream).map Reading.row) := by
  obtain ⟨hbytes, hfields, rfl⟩ := constructWithin_eq h
  refine ⟨⟨?_, ?_⟩, ?_⟩
  · intro hall
    rintro ⟨third, rest, rfl, hlost⟩
    by_contra hlimit
    have hone := hall 1
    rw [readings_return (by omega) hfields, plainReadings_return (by omega) hfields] at hone
    simp only [List.cons.injEq, Except.ok.injEq, Option.some.injEq, Prod.mk.injEq] at hone
    exact hlost (cons_dropLineFeed.mp hone.1.2)
  · intro hlost calls
    by_cases hreturn : ∃ third rest, HoldsReturn stream third rest
    · obtain ⟨third, rest, rfl⟩ := hreturn
      cases calls with
      | zero => rfl
      | succ calls =>
        by_cases hlimit : maxBytes = 1
        · have hplain : plainRow maxBytes maxFields (0xEF :: carriageReturn :: third :: rest) {} = _ :=
            (plainRow_eq _).trans (congrArg _ (readRow_limit rfl rfl hlimit hlimit))
          rw [construct_return, readings, plainReadings, hplain]
          unfold next
          rw [if_neg Bool.false_ne_true, readRow_limit rfl rfl hlimit hlimit]
          dsimp only [Except.map]
          rw [readings_failed rfl]
        · have hsame := cons_dropLineFeed.mpr (by
            by_contra hne
            exact hlimit (hlost ⟨third, rest, rfl, hne⟩))
          rw [readings_return (by omega) hfields, plainReadings_return (by omega) hfields, hsame]
    · push Not at hreturn
      exact (construct_stands hmark hreturn).readings calls
  · rintro rest rfl hnext hlimit
    obtain ⟨calls, hdiffer⟩ := rows_differ hbytes hfields rest
    refine ⟨calls + 1, ?_⟩
    have hdrop : dropLineFeed rest = rest := by
      cases rest with
      | nil => rfl
      | cons ch rest =>
        rw [dropLineFeed, if_neg]
        rintro rfl
        exact hnext rfl
    rw [readings_return (by omega) hfields, plainReadings_return (by omega) hfields, hdrop]
    intro heq
    rw [List.map_cons, List.map_cons, List.cons.injEq] at heq
    exact hdiffer (heq.2.trans (by rw [dropLineFeed, if_pos rfl]))

/-- A file in an eight-bit encoding whose first line is one letter, the byte EF, and whose
lines end in two characters: the end of its first line is read twice. -/
theorem first_line_end_read_twice :
    ∃ reader, constructWithin rowLimit 4096 [0xEF, 13, 10, 65, 13, 10] = .ok reader ∧
      [0xEF, 13, 10] ≠ byteOrderMark ∧
      (readings 4 reader).map Reading.row =
        [.ok (some [[0xEF]]), .ok (some [[]]), .ok (some [[65]]), .ok none] ∧
      (plainReadings rowLimit 4096 4 [0xEF, 13, 10, 65, 13, 10]).map Reading.row =
        [.ok (some [[0xEF]]), .ok (some [[65]]), .ok none, .ok none] := by
  refine ⟨_, rfl, by decide, ?_, rfl⟩
  exact congrArg _ (readings_return (by decide) (by decide) lineFeed [65, 13, 10] 3)

/-- A text that begins with a fullwidth sign, EF BC 81, is read as it is. -/
theorem look_ahead_harmless_iff_fullwidth :
    ∃ reader, constructWithin rowLimit 4096 [0xEF, 0xBC, 0x81, 13, 10] = .ok reader ∧
      readings 2 reader = plainReadings rowLimit 4096 2 [0xEF, 0xBC, 0x81, 13, 10] := by
  have hreader : constructWithin rowLimit 4096 [0xEF, 0xBC, 0x81, 13, 10] = .ok _ := rfl
  refine ⟨_, hreader, (look_ahead_harmless_iff hreader (by decide)).1.mpr ?_ 2⟩
  rintro ⟨third, rest, hreturn, -⟩
  cases hreturn

end CsvRowReader

end ProtoScope.Data
