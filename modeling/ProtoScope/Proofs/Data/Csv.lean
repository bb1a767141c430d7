/-
A row of cells comes back from its line.

Cell by cell: between two separators the state machine collects the characters of a cell,
whether it was written plain or quoted, and never stands inside quotes at the separator.
-/
import ProtoScope.Data.Csv

namespace ProtoScope.Data

namespace CsvRowReader

/-- A reader past the beginning of the file, with this much of it ahead. -/
def ahead (stream : List UInt8) : CsvRowReader := { stream := stream }

/-- One more character of a row within the limit. -/
theorem readRow_cons {ch : UInt8} {rest : List UInt8} {row : Row} (hbytes : row.bytes < rowLimit) :
    readRow (ahead (ch :: rest)) row =
      (if row.state = .quoted then
        if ch = quote then readRow (ahead rest) { row with bytes := row.bytes + 1, state := .closed }
        else readRow (ahead rest)
          { row with bytes := row.bytes + 1, value := row.value ++ [ch] }
      else if row.state = .closed ∧ ch = quote then
        readRow (ahead rest)
          { row with bytes := row.bytes + 1, value := row.value ++ [ch], state := .quoted }
      else if ch = comma then
        ({ row with bytes := row.bytes + 1 }.finish 4096) >>= fun row => readRow (ahead rest) row
      else if ch = lineFeed ∨ ch = carriageReturn then
        ({ row with bytes := row.bytes + 1 }.finish 4096) >>= fun row =>
          .ok (some row.fields,
            if ch = carriageReturn then (ahead rest).skipLineFeed else ahead rest)
      else if row.state = .closed ∨ ch = quote ∧ row.state ≠ .start then
        .error "CSV misplaced quote"
      else if ch = quote then
        readRow (ahead rest) { row with bytes := row.bytes + 1, state := .quoted }
      else readRow (ahead rest)
        { row with bytes := row.bytes + 1, value := row.value ++ [ch], state := .unquoted }) := by
  rw [readRow]
  split
  · rename_i hnone
    cases hnone
  · rename_i c after hget
    cases hget
    have hlimit : ¬ (ahead (ch :: rest)).maxBytes < row.bytes + 1 := Nat.not_lt.mpr hbytes
    dsimp only
    rw [if_neg hlimit]
    rfl

/-- The row with more characters of its last cell. -/
def Row.extended (row : Row) (state : State) (value : Text) (bytes : ℕ) : Row :=
  { row with state := state, value := row.value ++ value, bytes := row.bytes + bytes }

/-- Plain characters go into the cell as they are. -/
theorem readRow_plain {value : Text} (hvalue : ∀ ch ∈ value,
      ch ≠ comma ∧ ch ≠ quote ∧ ch ≠ lineFeed ∧ ch ≠ carriageReturn)
    (rest : List UInt8) {row : Row} (hstate : row.state = .start ∨ row.state = .unquoted)
    (hbytes : row.bytes + value.length ≤ rowLimit) :
    ∃ state, (state = .start ∨ state = .unquoted) ∧
      readRow (ahead (value ++ rest)) row =
        readRow (ahead rest) (row.extended state value value.length) := by
  induction value generalizing row with
  | nil =>
    refine ⟨row.state, hstate, ?_⟩
    simp [Row.extended]
  | cons ch value ih =>
    obtain ⟨hcomma, hquote, hlineFeed, hcarriageReturn⟩ := hvalue ch List.mem_cons_self
    rw [List.length_cons] at hbytes
    have hquoted : row.state ≠ .quoted := by
      rcases hstate with h | h <;> rw [h] <;> decide
    have hclosed : row.state ≠ .closed := by
      rcases hstate with h | h <;> rw [h] <;> decide
    obtain ⟨state, hnext, hread⟩ := ih (fun c hc => hvalue c (List.mem_cons_of_mem _ hc))
      (.inr rfl : Row.state { row with
        bytes := row.bytes + 1, value := row.value ++ [ch], state := .unquoted } = _ ∨ _)
      (by show row.bytes + 1 + value.length ≤ _; omega)
    refine ⟨state, hnext, ?_⟩
    rw [List.cons_append, readRow_cons (by omega), if_neg hquoted, if_neg (fun h => hclosed h.1),
      if_neg hcomma, if_neg (fun h => h.elim hlineFeed hcarriageReturn),
      if_neg (fun h => h.elim hclosed fun h => hquote h.1), if_neg hquote, hread]
    congr 1
    simp only [Row.extended, List.append_assoc, List.singleton_append, List.length_cons]
    congr 1
    omega

/-- Inside quotes every character goes into the cell, a doubled quote once. -/
theorem readRow_quoted (value : Text) (rest : List UInt8) {row : Row}
    (hstate : row.state = .quoted)
    (hbytes : row.bytes + (doubleQuotes value).length ≤ rowLimit) :
    readRow (ahead (doubleQuotes value ++ rest)) row =
      readRow (ahead rest) (row.extended .quoted value (doubleQuotes value).length) := by
  induction value generalizing row with
  | nil => simp [doubleQuotes, Row.extended, ← hstate]
  | cons ch value ih =>
    unfold doubleQuotes at hbytes ⊢
    by_cases hquote : ch = quote
    · rw [if_pos hquote] at hbytes ⊢
      simp only [List.length_cons] at hbytes
      simp only [List.cons_append]
      rw [readRow_cons (by omega), if_pos hstate, if_pos rfl,
        readRow_cons (by show row.bytes + 1 < _; omega), if_neg (by simp), if_pos ⟨rfl, hquote⟩,
        ih rfl (by show row.bytes + 1 + 1 + _ ≤ _; omega)]
      congr 1
      simp only [Row.extended, List.append_assoc, List.singleton_append, List.length_cons]
      congr 1
      omega
    · rw [if_neg hquote] at hbytes ⊢
      rw [List.length_cons] at hbytes
      rw [List.cons_append, readRow_cons (by omega), if_pos hstate, if_neg hquote,
        ih (by exact hstate) (by show row.bytes + 1 + _ ≤ _; omega)]
      congr 1
      simp only [Row.extended, List.append_assoc, List.singleton_append, List.length_cons]
      congr 1
      omega

theorem readRow_open (rest : List UInt8) {row : Row} (hstate : row.state = .start)
    (hbytes : row.bytes < rowLimit) :
    readRow (ahead (quote :: rest)) row =
      readRow (ahead rest) { row with bytes := row.bytes + 1, state := .quoted } := by
  rw [readRow_cons hbytes, if_neg (by rw [hstate]; decide),
    if_neg (by rw [hstate]; rintro ⟨h, -⟩; cases h), if_neg (by decide), if_neg (by decide),
    if_neg (by rw [hstate]; rintro (h | ⟨-, h⟩); cases h; exact h rfl), if_pos rfl]

theorem readRow_close (rest : List UInt8) {row : Row} (hstate : row.state = .quoted)
    (hbytes : row.bytes < rowLimit) :
    readRow (ahead (quote :: rest)) row =
      readRow (ahead rest) { row with bytes := row.bytes + 1, state := .closed } := by
  rw [readRow_cons hbytes, if_pos hstate, if_pos rfl]

/-- **A cell is collected as it was before it was escaped.** -/
theorem readRow_escaped (value : Text) (rest : List UInt8) {row : Row}
    (hstate : row.state = .start) (hbytes : row.bytes + (csvEscape value).length ≤ rowLimit) :
    ∃ state, state ≠ .quoted ∧ readRow (ahead (csvEscape value ++ rest)) row =
      readRow (ahead rest) (row.extended state value (csvEscape value).length) := by
  unfold csvEscape at hbytes ⊢
  by_cases hany : value.any (fun ch => ch ∈ [comma, quote, lineFeed, carriageReturn, hash])
  · rw [if_pos hany] at hbytes ⊢
    simp only [List.length_cons, List.length_append, List.length_nil] at hbytes
    refine ⟨.closed, by decide, ?_⟩
    rw [List.cons_append, readRow_open _ hstate (by omega), List.append_assoc,
      readRow_quoted _ _ rfl (by show row.bytes + 1 + _ ≤ _; omega), List.singleton_append,
      readRow_close rest rfl (by show row.bytes + 1 + (doubleQuotes value).length < _; omega)]
    congr 1
    simp only [Row.extended, List.length_cons, List.length_append, List.length_nil]
    congr 1
    omega
  · rw [if_neg hany] at hbytes ⊢
    have hplain : ∀ ch ∈ value,
        ch ≠ comma ∧ ch ≠ quote ∧ ch ≠ lineFeed ∧ ch ≠ carriageReturn := by
      intro ch hch
      have hnone : ch ∉ [comma, quote, lineFeed, carriageReturn, hash] := fun hmem =>
        hany (List.any_eq_true.mpr ⟨ch, hch, decide_eq_true hmem⟩)
      simp only [List.mem_cons, List.not_mem_nil, or_false, not_or] at hnone
      exact ⟨hnone.1, hnone.2.1, hnone.2.2.1, hnone.2.2.2.1⟩
    obtain ⟨state, hnext, hread⟩ := readRow_plain hplain rest (.inl hstate) hbytes
    refine ⟨state, ?_, hread⟩
    rcases hnext with rfl | rfl <;> decide

/-- The row after a comma. -/
def Row.nextCell (row : Row) : Row where
  fields := row.fields ++ [row.value]
  bytes := row.bytes + 1

theorem readRow_comma (rest : List UInt8) {row : Row} (hstate : row.state ≠ .quoted)
    (hbytes : row.bytes < rowLimit) (hroom : ¬ 4096 ≤ row.fields.length) :
    readRow (ahead (comma :: rest)) row = readRow (ahead rest) row.nextCell := by
  rw [readRow_cons hbytes, if_neg hstate,
    if_neg (by rintro ⟨-, h⟩; exact absurd h (by decide)), if_pos rfl]
  unfold Row.finish
  dsimp only
  rw [invalid_of_not hroom]
  rfl

/-- **The cells still to be read, up to the end of the line.** -/
theorem readRow_fields {bytes : ℕ} {fields : List Text} {text : List UInt8}
    (h : writeFields bytes fields = .ok text) (rest : List UInt8) {row : Row}
    (hstate : row.state ≠ .quoted) (hbytes : row.bytes + text.length + 1 ≤ rowLimit)
    (hfields : row.fields.length + 1 + fields.length ≤ 4096) :
    readRow (ahead (text ++ lineFeed :: rest)) row =
      .ok (some (row.fields ++ row.value :: fields), ahead rest) := by
  induction fields generalizing bytes text row with
  | nil =>
    cases h
    have hroom : ¬ 4096 ≤ row.fields.length := by
      rw [List.length_nil] at hfields
      omega
    rw [List.nil_append, readRow_cons (by rw [List.length_nil] at hbytes; omega), if_neg hstate,
      if_neg (by rintro ⟨-, h⟩; exact absurd h (by decide)), if_neg (by decide), if_pos (.inl rfl)]
    unfold Row.finish
    dsimp only
    rw [invalid_of_not hroom]
    rfl
  | cons field fields ih =>
    obtain ⟨hlimit, h⟩ := invalid_of_ok h
    obtain ⟨others, hothers, h⟩ := bind_eq_ok.mp h
    cases h
    simp only [List.length_cons, List.length_append] at hbytes hfields
    have hroom : ¬ 4096 ≤ row.fields.length := by omega
    rw [List.cons_append, readRow_comma _ hstate (by omega) hroom, List.append_assoc]
    obtain ⟨state, hnext, hread⟩ := readRow_escaped field (others ++ lineFeed :: rest)
      (rfl : row.nextCell.state = .start) (by show row.bytes + 1 + _ ≤ _; omega)
    have hcells : row.nextCell.fields.length = row.fields.length + 1 := by
      simp [Row.nextCell]
    rw [hread, ih hothers (by exact hnext)
      (by show row.bytes + 1 + (csvEscape field).length + _ + 1 ≤ _; omega)
      (by show row.nextCell.fields.length + 1 + _ ≤ _; omega)]
    simp [Row.extended, Row.nextCell]

theorem writeFields_length {bytes : ℕ} {fields : List Text} {text : List UInt8}
    (h : writeFields bytes fields = .ok text) (hbytes : bytes ≤ rowLimit) :
    bytes + text.length ≤ rowLimit := by
  induction fields generalizing bytes text with
  | nil =>
    cases h
    exact hbytes
  | cons field fields ih =>
    obtain ⟨hlimit, h⟩ := invalid_of_ok h
    obtain ⟨others, hothers, h⟩ := bind_eq_ok.mp h
    cases h
    have := ih hothers (by omega)
    simp only [List.length_cons, List.length_append]
    omega

/-- **A row comes back from its line.** -/
theorem next_of_writeCsvRow {fields : List Text} {line : List UInt8} (hne : fields ≠ [])
    (h : writeCsvRow fields = .ok line) (rest : List UInt8) :
    (ahead (line ++ rest)).next = (.ok (some fields), ahead rest) := by
  obtain ⟨hcount, h⟩ := invalid_of_ok h
  obtain ⟨_, -, h⟩ := bind_eq_ok.mp h
  cases fields with
  | nil => exact absurd rfl hne
  | cons field fields =>
    obtain ⟨hlimit, h⟩ := invalid_of_ok h
    obtain ⟨others, hothers, h⟩ := bind_eq_ok.mp h
    cases h
    have hpositive : 1 ≤ rowLimit := by decide
    have hlength := writeFields_length hothers (by omega)
    rw [List.length_cons] at hcount
    have hrow : readRow (ahead (csvEscape field ++ others ++ [lineFeed] ++ rest)) {} =
        .ok (some (field :: fields), ahead rest) := by
      rw [List.append_assoc, List.append_assoc]
      obtain ⟨state, hnext, hread⟩ := readRow_escaped field (others ++ lineFeed :: rest)
        (rfl : Row.state {} = .start) (by show 0 + _ ≤ _; omega)
      rw [List.singleton_append, hread, readRow_fields hothers rest (by exact hnext)
        (by show 0 + _ + _ + 1 ≤ _; omega) (by show 0 + 1 + _ ≤ _; omega)]
      rfl
    unfold next
    rw [if_neg (by exact Bool.false_ne_true), hrow]

end CsvRowReader

end ProtoScope.Data
