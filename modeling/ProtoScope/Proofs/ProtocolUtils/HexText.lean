/-
What a hex editor keeps is what the parser reads.

A blank is no digit, so putting blanks between pairs of digits changes neither the digits of a text
nor what is left of it without blanks.  The cursor stands behind a number of digits; the blanks
before it are those between the pairs that are complete, which is one for every two digits but the
last.
-/
import ProtoScope.ProtocolUtils.HexText

namespace ProtoScope.ProtocolUtils

open ProtoScope.Library Hex

/-! ### Digits -/

/-- The values of the digits of a text, in order. -/
def digits (text : Text) : List UInt8 := text.filterMap nibble

theorem nibble_isSpace {ch : UInt8} (h : Lines.isSpace ch = true) : nibble ch = none := by
  have hrange : ch.toNat = 32 ∨ 9 ≤ ch.toNat ∧ ch.toNat ≤ 13 := by
    simp only [Lines.isSpace, Bool.or_eq_true, Bool.and_eq_true, beq_iff_eq, decide_eq_true_eq,
      UInt8.le_iff_toNat_le, ← UInt8.toNat_inj] at h
    exact h
  unfold nibble
  simp only [UInt8.le_iff_toNat_le, UInt8.reduceToNat]
  rw [if_neg (by omega), if_neg (by omega), if_neg (by omega)]

theorem nibble_lt {ch value : UInt8} (h : nibble ch = some value) : value.toNat < 16 := by
  unfold nibble at h
  simp only [UInt8.le_iff_toNat_le, UInt8.reduceToNat] at h
  split at h
  · obtain rfl := Option.some.inj h
    rw [UInt8.toNat_sub]
    simp only [UInt8.reduceToNat]
    omega
  · split at h
    · obtain rfl := Option.some.inj h
      rw [UInt8.toNat_add, UInt8.toNat_sub]
      simp only [UInt8.reduceToNat]
      omega
    · split at h
      · obtain rfl := Option.some.inj h
        rw [UInt8.toNat_add, UInt8.toNat_sub]
        simp only [UInt8.reduceToNat]
        omega
      · cases h

theorem isSpace_digit {value : UInt8} (h : value.toNat < 16) :
    Lines.isSpace (digit capitalA value) = false := by
  have hdigit := nibble_digit .upper h
  by_contra hspace
  rw [Bool.not_eq_false] at hspace
  have hnone : nibble (digit 65 value) = none := nibble_isSpace hspace
  rw [hdigit] at hnone
  cases hnone

/-! ### Text with blanks -/

theorem digits_blank : nibble blank = none := nibble_isSpace (by decide)

/-- Blanks between the pairs add no digits. -/
theorem digits_spacePairs : ∀ compact : Text, digits (spacePairs compact) = digits compact
  | [] | [_] | [_, _] => rfl
  | first :: second :: third :: rest => by
    have ih := digits_spacePairs (third :: rest)
    unfold digits at ih ⊢
    rw [spacePairs, List.filterMap_cons, List.filterMap_cons, List.filterMap_cons, digits_blank,
      ih, List.filterMap_cons (a := first), List.filterMap_cons (a := second)]

/-- Without blanks the pairs are what they were. -/
theorem filter_spacePairs : ∀ {compact : Text}, (∀ ch ∈ compact, Lines.isSpace ch = false) →
    (spacePairs compact).filter (fun ch => !Lines.isSpace ch) = compact
  | [], _ => rfl
  | [first], h => by simp [spacePairs, h first]
  | [first, second], h => by simp [spacePairs, h first, h second]
  | first :: second :: third :: rest, h => by
    have ih := @filter_spacePairs (third :: rest) fun ch hch =>
      h ch (List.mem_cons_of_mem _ (List.mem_cons_of_mem _ hch))
    have hblank : Lines.isSpace blank = true := by decide
    rw [spacePairs, List.filter_cons_of_pos (by simp [h first]),
      List.filter_cons_of_pos (by simp [h second]), List.filter_cons_of_neg (by simp [hblank]), ih]

/-- Where the cursor stands behind `count` digits: the blanks before it are those of the pairs
before the last of them. -/
def cursorAfter (count : ℕ) : ℕ := count + (count - 1) / 2

/-- **The digits before the cursor** are as many as it was put behind. -/
theorem take_spacePairs : ∀ {compact : Text} {count : ℕ}, count ≤ compact.length →
    digits ((spacePairs compact).take (cursorAfter count)) = digits (compact.take count)
  | _, 0, _ => rfl
  | [_], 1, _ | [_, _], 1, _ | [_, _], 2, _ => rfl
  | _ :: _ :: _ :: _, 1, _ | _ :: _ :: _ :: _, 2, _ => rfl
  | first :: second :: third :: rest, count + 3, h => by
    simp only [List.length_cons] at h
    have ih := @take_spacePairs (third :: rest) (count + 1) (by simp only [List.length_cons]; omega)
    have hcursor : cursorAfter (count + 3) = cursorAfter (count + 1) + 3 := by
      unfold cursorAfter
      omega
    unfold digits at ih ⊢
    rw [spacePairs, hcursor, List.take_succ_cons, List.take_succ_cons, List.take_succ_cons,
      List.filterMap_cons, List.filterMap_cons, List.filterMap_cons, digits_blank, ih,
      List.take_succ_cons (i := count + 2), List.take_succ_cons (i := count + 1),
      List.filterMap_cons (a := first), List.filterMap_cons (a := second)]

/-- The character before the cursor is the last of the digits it was put behind. -/
theorem getElem_spacePairs : ∀ {compact : Text} {count : ℕ}, count < compact.length →
    (spacePairs compact)[cursorAfter (count + 1) - 1]? = compact[count]?
  | [_], 0, _ | [_, _], 0, _ | [_, _], 1, _ => rfl
  | _ :: _ :: _ :: _, 0, _ | _ :: _ :: _ :: _, 1, _ => rfl
  | first :: second :: third :: rest, count + 2, h => by
    simp only [List.length_cons] at h
    have ih := @getElem_spacePairs (third :: rest) count (by simp only [List.length_cons]; omega)
    have hcursor : cursorAfter (count + 2 + 1) - 1 = cursorAfter (count + 1) - 1 + 3 := by
      unfold cursorAfter
      omega
    rw [spacePairs, hcursor, List.getElem?_cons_succ, List.getElem?_cons_succ,
      List.getElem?_cons_succ, ih, List.getElem?_cons_succ, List.getElem?_cons_succ]

/-! ### What is kept of a text -/

/-- The digits of a text in capital letters. -/
def capitals (values : List UInt8) : Text := values.map (digit capitalA)

/-- **The loop keeps the digits and counts those before the cursor.** -/
theorem compactDigits_eq (cursorPos index : ℕ) (text : Text) :
    compactDigits cursorPos index text =
      ((digits (text.take (cursorPos - index))).length, capitals (digits text)) := by
  induction text generalizing index with
  | nil => simp [compactDigits, digits, capitals]
  | cons ch text ih =>
    have htake : digits ((ch :: text).take (cursorPos - index)) =
        (if index < cursorPos then (nibble ch).toList else []) ++
          digits (text.take (cursorPos - (index + 1))) := by
      by_cases hbefore : index < cursorPos
      · have hcount : cursorPos - index = cursorPos - (index + 1) + 1 := by omega
        rw [hcount, List.take_succ_cons, if_pos hbefore]
        unfold digits
        rw [List.filterMap_cons]
        cases nibble ch <;> rfl
      · have hnone : cursorPos - index = 0 ∧ cursorPos - (index + 1) = 0 := by omega
        rw [hnone.1, hnone.2, if_neg hbefore]
        rfl
    have hdigits : digits (ch :: text) = (nibble ch).toList ++ digits text := by
      unfold digits
      rw [List.filterMap_cons]
      cases nibble ch <;> rfl
    unfold compactDigits hexNibble
    dsimp only
    rw [ih, htake, hdigits]
    cases hnibble : nibble ch with
    | none => simp
    | some value =>
      have hspace : ¬ Lines.isSpace ch = true := by
        intro hspace
        rw [nibble_isSpace hspace] at hnibble
        cases hnibble
      rw [if_neg hspace]
      by_cases hbefore : index < cursorPos
      · simp [hbefore, capitals, Nat.add_comm]
      · simp [hbefore, capitals]

theorem digits_lt {text : Text} : ∀ value ∈ digits text, value.toNat < 16 := by
  intro value hvalue
  obtain ⟨ch, -, hch⟩ := List.mem_filterMap.mp hvalue
  exact nibble_lt hch

theorem digits_capitals {values : List UInt8} (h : ∀ value ∈ values, value.toNat < 16) :
    digits (capitals values) = values := by
  unfold digits capitals
  rw [List.filterMap_map]
  induction values with
  | nil => rfl
  | cons value rest ih =>
    have hone : (nibble ∘ digit capitalA) value = some value :=
      nibble_digit .upper (h value List.mem_cons_self)
    rw [List.filterMap_cons, hone, ih fun other hother => h other (List.mem_cons_of_mem _ hother)]

/-- The two digits of a byte. -/
def halves (byte : UInt8) : List UInt8 := [(byte >>> 4) &&& 15, byte &&& 15]

theorem halves_join {high low : UInt8} (hhigh : high.toNat < 16) (hlow : low.toNat < 16) :
    halves ((high <<< 4) ||| low) = [high, low] := by
  have hall : ∀ high low : Fin 16,
      halves ((UInt8.ofNat high <<< 4) ||| UInt8.ofNat low) =
        [UInt8.ofNat high, UInt8.ofNat low] := by
    decide +kernel
  have hone := hall ⟨high.toNat, hhigh⟩ ⟨low.toNat, hlow⟩
  rwa [UInt8.ofNat_toNat, UInt8.ofNat_toNat] at hone

/-- **An even number of digits is read as bytes**, and they have these digits. -/
theorem decode_capitals : ∀ {values : List UInt8}, (∀ value ∈ values, value.toNat < 16) →
    values.length % 2 = 0 →
    ∃ bytes, decode (capitals values) = some bytes ∧ bytes.flatMap halves = values
  | [], _, _ => ⟨[], rfl, rfl⟩
  | [_], _, heven => by cases heven
  | high :: low :: rest, h, heven => by
    have hhigh := h high List.mem_cons_self
    have hlow := h low (List.mem_cons_of_mem _ List.mem_cons_self)
    obtain ⟨bytes, hdecode, hbytes⟩ := @decode_capitals rest
      (fun value hvalue => h value (List.mem_cons_of_mem _ (List.mem_cons_of_mem _ hvalue)))
      (by simpa [Nat.add_assoc] using heven)
    refine ⟨((high <<< 4) ||| low) :: bytes, ?_, ?_⟩
    · unfold capitals at hdecode ⊢
      simp only [List.map_cons, decode, capitalA, nibble_digit .upper hhigh,
        nibble_digit .upper hlow, Option.bind_eq_bind, Option.bind_some]
      unfold capitalA at hdecode
      rw [hdecode]
      rfl
    · rw [List.flatMap_cons, halves_join hhigh hlow, hbytes]
      rfl

/-! ### Writing bytes and reading them back -/

/-- Without blanks what is written is the digits of the bytes. -/
theorem filter_bytesToHex (bytes : List UInt8) (withSpace : Bool) :
    (bytesToHex bytes withSpace).filter (fun ch => !Lines.isSpace ch) =
      encode capitalA bytes := by
  induction bytes with
  | nil => rfl
  | cons byte rest ih =>
    have hhigh := isSpace_digit (and_lt (byte >>> 4))
    have hlow := isSpace_digit (and_lt byte)
    have hblank : (if withSpace && !rest.isEmpty then [blank] else []).filter
        (fun ch => !Lines.isSpace ch) = [] := by
      split <;> rfl
    unfold bytesToHex encode
    rw [List.filter_cons_of_pos (by rw [hhigh]; rfl), List.filter_cons_of_pos (by rw [hlow]; rfl),
      List.filter_append, hblank, ih, List.nil_append]

theorem length_encode (letter : UInt8) (bytes : List UInt8) :
    (encode letter bytes).length = 2 * bytes.length := by
  induction bytes with
  | nil => rfl
  | cons byte rest ih =>
    rw [encode, List.length_cons, List.length_cons, ih, List.length_cons]
    omega

/-- **Bytes are read back from the text they are written as**, with blanks or without. -/
theorem hexToBytes_bytesToHex (bytes : List UInt8) (withSpace : Bool) :
    hexToBytes (bytesToHex bytes withSpace) = some bytes := by
  have hlength := length_encode capitalA bytes
  unfold hexToBytes
  dsimp only
  rw [filter_bytesToHex]
  by_cases hempty : bytes = []
  · rw [hempty]
    rfl
  · have hpos := List.length_pos_iff.mpr hempty
    have hsome : ¬ (encode capitalA bytes).isEmpty = true := by
      rw [List.isEmpty_iff, ← List.length_eq_zero_iff]
      omega
    rw [if_neg hsome, if_neg (by omega)]
    exact decode_encode .upper bytes

/-! ### The editor -/

/-- What the editor makes of a text, in terms of its digits. -/
theorem normalizeHexEditorInput_eq (text : Text) (cursorPos : ℕ) :
    normalizeHexEditorInput text cursorPos =
      { text := spacePairs (capitals (digits text))
        cursorPos := cursorAfter (digits (text.take cursorPos)).length
        digitCount := (digits text).length } := by
  have hle : (digits (text.take cursorPos)).length ≤ (digits text).length :=
    ((List.take_sublist cursorPos text).filterMap nibble).length_le
  have hcapitals : (capitals (digits text)).length = (digits text).length := List.length_map _
  unfold normalizeHexEditorInput
  rw [compactDigits_eq, Nat.sub_zero]
  dsimp only
  by_cases hempty : digits text = []
  · rw [hempty, List.length_nil, Nat.le_zero] at hle
    rw [hempty, hle]
    rfl
  · have hsome : ¬ (capitals (digits text)).isEmpty = true := by
      rw [List.isEmpty_iff, ← List.length_eq_zero_iff, hcapitals]
      exact mt List.length_eq_zero_iff.mp hempty
    have hcursor : ∀ count, count + (if 0 < count then (count - 1) / 2 else 0) =
        cursorAfter count := by
      intro count
      unfold cursorAfter
      split <;> omega
    rw [if_neg hsome, hcapitals, Nat.min_eq_left hle, hcursor]

theorem not_isSpace_capitals {values : List UInt8} (h : ∀ value ∈ values, value.toNat < 16) :
    ∀ ch ∈ capitals values, Lines.isSpace ch = false := by
  intro ch hch
  obtain ⟨value, hvalue, rfl⟩ := List.mem_map.mp hch
  exact isSpace_digit (h value hvalue)

/-- The digits of what the editor keeps are those of what was typed. -/
theorem digits_pairs (text : Text) :
    digits (spacePairs (capitals (digits text))) = digits text := by
  rw [digits_spacePairs, digits_capitals digits_lt]

/-- The digits before the cursor are those that were before it. -/
theorem digits_before (text : Text) (cursorPos : ℕ) :
    digits ((spacePairs (capitals (digits text))).take
        (cursorAfter (digits (text.take cursorPos)).length)) = digits (text.take cursorPos) := by
  have hprefix : digits (text.take cursorPos) <+: digits text :=
    (List.take_prefix cursorPos text).filterMap nibble
  have hle : (digits (text.take cursorPos)).length ≤ (capitals (digits text)).length := by
    unfold capitals
    rw [List.length_map]
    exact hprefix.length_le
  rw [take_spacePairs hle]
  unfold capitals
  rw [← List.map_take, ← List.prefix_iff_eq_take.mp hprefix]
  exact digits_capitals digits_lt

/-- What holds of the normal form of a text and a cursor. -/
structure Normalized (text : Text) (cursorPos : ℕ) (result : HexEditorNormalization) : Prop where
  idempotent : normalizeHexEditorInput result.text result.cursorPos = result
  /-- Apart from blanks there is nothing but the digits, in capital letters. -/
  kept : result.text.filter (fun ch => !Lines.isSpace ch) = capitals (digits text)
  count : result.digitCount = (digits text).length
  /-- The cursor is behind the same digits as before, directly behind the last of them. -/
  before : digits (result.text.take result.cursorPos) = digits (text.take cursorPos)
  cursor : result.cursorPos ≤ result.text.length
  behind : result.cursorPos = 0 ∨
    ∃ ch, result.text[result.cursorPos - 1]? = some ch ∧ (nibble ch).isSome
  parsed : result.digitCount % 2 = 0 →
    ∃ bytes, hexToBytes result.text = some bytes ∧ bytes.flatMap halves = digits text

/-- **Hex input.**  Every list of bytes is read back from the text it is written as.  For every
text and every cursor the editor keeps exactly the digits, once and for all, moves the cursor behind
as many of them as it was behind before, and what it keeps is read as the bytes of these digits
wherever their number is even. -/
theorem hex_input :
    (∀ bytes withSpace, hexToBytes (bytesToHex bytes withSpace) = some bytes) ∧
      ∀ text cursorPos, Normalized text cursorPos (normalizeHexEditorInput text cursorPos) := by
  refine ⟨hexToBytes_bytesToHex, fun text cursorPos => ?_⟩
  have hspaces := not_isSpace_capitals (@digits_lt text)
  have hcapitals : (capitals (digits text)).length = (digits text).length := List.length_map _
  have hbehind : ∀ count, count + 1 ≤ (digits text).length →
      ∃ ch, (spacePairs (capitals (digits text)))[cursorAfter (count + 1) - 1]? = some ch ∧
        (Hex.nibble ch).isSome := by
    intro count hcount
    have hlt : count < (capitals (digits text)).length := by omega
    have hmem := List.getElem_mem hlt
    obtain ⟨value, hvalue, hdigit⟩ := List.mem_map.mp hmem
    refine ⟨_, (getElem_spacePairs hlt).trans (List.getElem?_eq_getElem hlt), ?_⟩
    rw [← hdigit]
    unfold capitalA
    rw [Hex.nibble_digit .upper (digits_lt value hvalue)]
    rfl
  have hle : (digits (text.take cursorPos)).length ≤ (digits text).length :=
    ((List.take_sublist cursorPos text).filterMap Hex.nibble).length_le
  rw [normalizeHexEditorInput_eq]
  refine ⟨?_, filter_spacePairs hspaces, rfl, digits_before text cursorPos, ?_, ?_, ?_⟩
  · rw [normalizeHexEditorInput_eq]
    dsimp only
    rw [digits_pairs, digits_before]
  · dsimp only
    cases hcount : (digits (text.take cursorPos)).length with
    | zero => exact Nat.zero_le _
    | succ count =>
      obtain ⟨ch, hch, -⟩ := hbehind count (hcount ▸ hle)
      have hlt := (List.getElem?_eq_some_iff.mp hch).1
      omega
  · dsimp only
    cases hcount : (digits (text.take cursorPos)).length with
    | zero => exact .inl rfl
    | succ count => exact .inr (hbehind count (hcount ▸ hle))
  · intro heven
    obtain ⟨bytes, hdecode, hbytes⟩ := decode_capitals (@digits_lt text) heven
    refine ⟨bytes, ?_, hbytes⟩
    unfold hexToBytes
    dsimp only
    rw [filter_spacePairs hspaces]
    by_cases hempty : digits text = []
    · rw [hempty] at hdecode ⊢
      exact hdecode
    · have hpos := List.length_pos_iff.mpr hempty
      have hsome : ¬ (capitals (digits text)).isEmpty = true := by
        rw [List.isEmpty_iff, ← List.length_eq_zero_iff]
        omega
      dsimp only at heven
      rw [if_neg hsome, if_neg (by omega)]
      exact hdecode

end ProtoScope.ProtocolUtils
