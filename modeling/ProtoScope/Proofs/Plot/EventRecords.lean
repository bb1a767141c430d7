/-
Event records are read back.

A line that was written as a field is read as that field, so the text of a record is read by
going through its fields.  The fields of a channel give its settings, and a record refuses
exactly what one of its fields refuses.
-/
import ProtoScope.Plot.RawCaptureEvents

namespace ProtoScope.Plot

open ProtoScope.Data (Text text ok_bind bind_eq_ok)
open ProtoScope.Library

/-! ### Lines -/

def GoodKey (key : Text) : Prop :=
  key ≠ [] ∧ ∀ byte ∈ key, Lines.isSpace byte = false ∧ byte ≠ colon

instance (key : Text) : Decidable (GoodKey key) :=
  inferInstanceAs (Decidable (_ ∧ ∀ byte ∈ key, _))

/-- The bytes of a key, checked in one pass. -/
theorem keyBytes_of_all {key : Text}
    (h : key.all (fun byte => !Lines.isSpace byte && byte != colon) = true) :
    ∀ byte ∈ key, Lines.isSpace byte = false ∧ byte ≠ colon := by
  intro byte hbyte
  simpa using List.all_eq_true.mp h byte hbyte

theorem goodKey_of_all {key : Text}
    (h : (!key.isEmpty && key.all fun byte => !Lines.isSpace byte && byte != colon) = true) :
    GoodKey key := by
  rw [Bool.and_eq_true] at h
  exact ⟨by simpa using h.1, keyBytes_of_all h.2⟩

theorem plain_of_all {value : Text} (h : value.all (fun byte => !Lines.isSpace byte) = true) :
    Plain value := by
  intro byte hbyte
  simpa using List.all_eq_true.mp h byte hbyte

/-- A field its line gives back. -/
structure GoodField (field : Text × Text) : Prop where
  key : GoodKey field.1
  value : Lines.Trimmed field.2
  oneLine : lineFeed ∉ field.2

theorem Plain.oneLine {value : Text} (h : Plain value) : lineFeed ∉ value :=
  fun hmem => absurd (h _ hmem) (by decide)

theorem GoodField.of_plain {key value : Text} (hkey : GoodKey key) (hvalue : Plain value) :
    GoodField (key, value) :=
  ⟨hkey, Lines.trimmed_of_forall hvalue, hvalue.oneLine⟩

/-- The line of a field, without its line feed. -/
def fieldText (field : Text × Text) : Text := field.1 ++ colon :: 32 :: field.2

theorem fieldLine_eq (field : Text × Text) : fieldLine field = fieldText field ++ [lineFeed] := rfl

variable {field : Text × Text} {numbers : Numbers} {channel : ChannelSpec} {decoded : DecodedEvent}
  {index : ℕ} {channels : List ChannelSpec}

theorem GoodField.lineFeed_not_mem (h : GoodField field) : lineFeed ∉ fieldText field := by
  unfold fieldText
  rw [List.mem_append, List.mem_cons, List.mem_cons]
  rintro (hmem | hmem | hmem | hmem)
  · exact absurd (h.key.2 _ hmem).1 (by decide)
  · exact absurd hmem (by decide)
  · exact absurd hmem (by decide)
  · exact h.oneLine hmem

theorem GoodField.cut_line (h : GoodField field) (rest : Text) :
    Lines.cut lineFeed (fieldLine field ++ rest) = (fieldText field, some rest) := by
  rw [fieldLine_eq, List.append_assoc]
  exact Lines.cut_append h.lineFeed_not_mem rest

/-- Trimming takes the blank after the colon when the value is empty, and nothing else. -/
theorem GoodField.trim_fieldText (h : GoodField field) :
    Lines.trim (fieldText field) =
      field.1 ++ colon :: (if field.2 = [] then [] else 32 :: field.2) := by
  obtain ⟨key, value⟩ := field
  have hhead : ∀ after, ∀ byte ∈ (key ++ colon :: after).head?, Lines.isSpace byte = false := by
    intro after byte hbyte
    cases hkey : key with
    | nil => exact absurd hkey h.key.1
    | cons first others =>
      rw [hkey] at hbyte
      cases hbyte
      exact (h.key.2 _ (hkey ▸ List.mem_cons_self)).1
  by_cases hvalue : value = []
  · have hline : fieldText (key, value) = (key ++ [colon]) ++ [32] := by
      simp [fieldText, hvalue]
    have htrimmed : Lines.Trimmed (key ++ [colon]) := by
      refine ⟨hhead [], fun byte hbyte => ?_⟩
      rw [List.getLast?_concat] at hbyte
      cases hbyte
      decide
    rw [hline, Lines.trim_append_space (by decide), Lines.trim_eq_self htrimmed, if_pos hvalue]
  · rw [if_neg hvalue]
    apply Lines.trim_eq_self
    refine ⟨hhead _, fun byte hbyte => h.value.2 byte ?_⟩
    have hlast : fieldText (key, value) = (key ++ [colon, 32]) ++ value := by
      simp [fieldText]
    rw [hlast, List.getLast?_append_of_ne_nil _ hvalue] at hbyte
    exact hbyte

theorem GoodField.trim_ne_nil (h : GoodField field) : Lines.trim (fieldText field) ≠ [] := by
  rw [h.trim_fieldText]
  intro hnil
  exact h.key.1 (List.append_eq_nil_iff.mp hnil).1

theorem GoodField.parseFieldLine_eq (h : GoodField field) (numbers : Numbers)
    (decoded : DecodedEvent) :
    parseFieldLine numbers (Lines.trim (fieldText field)) decoded =
      parseDecodedEventField numbers field.1 field.2 decoded := by
  have hcolon : colon ∉ field.1 := fun hmem => (h.key.2 _ hmem).2 rfl
  have hkey : Lines.trim field.1 = field.1 :=
    Lines.trim_eq_self (Lines.trimmed_of_forall fun byte hbyte => (h.key.2 byte hbyte).1)
  have hvalue : Lines.trim (if field.2 = [] then [] else 32 :: field.2) = field.2 := by
    split
    · rename_i hnil
      rw [hnil]
      rfl
    · rw [Lines.trim_cons_of_space (by decide), Lines.trim_eq_self h.value]
  unfold parseFieldLine
  rw [h.trim_fieldText, Lines.cut_append hcolon]
  dsimp only
  rw [hkey, hvalue]

/-- What the fields of a record make of an event. -/
def applyFields (numbers : Numbers) (fields : Fields) (decoded : DecodedEvent) :
    Except String DecodedEvent :=
  fields.foldlM (fun decoded field => parseDecodedEventField numbers field.1 field.2 decoded) decoded

theorem applyFields_cons (numbers : Numbers) (field : Text × Text) (fields : Fields)
    (decoded : DecodedEvent) :
    applyFields numbers (field :: fields) decoded =
      parseDecodedEventField numbers field.1 field.2 decoded >>= applyFields numbers fields :=
  List.foldlM_cons

theorem applyFields_append (numbers : Numbers) (first second : Fields) (decoded : DecodedEvent) :
    applyFields numbers (first ++ second) decoded =
      applyFields numbers first decoded >>= applyFields numbers second :=
  List.foldlM_append

/-- **The text of fields is read as the fields**, up to the empty line after them. -/
theorem readFields_recordText {fields : Fields} (h : ∀ field ∈ fields, GoodField field)
    (rest : Text) (decoded : DecodedEvent) :
    readFields numbers (recordText fields ++ rest) decoded =
      applyFields numbers fields decoded >>= fun decoded => .ok (decoded, some rest) := by
  induction fields generalizing decoded with
  | nil =>
    have hcut : Lines.cut lineFeed (lineFeed :: rest) = ([], some rest) :=
      Lines.cut_append List.not_mem_nil rest
    have hnil : lineFeed :: rest ≠ [] := List.cons_ne_nil _ _
    show readFields numbers (lineFeed :: rest) decoded = .ok (decoded, some rest)
    rw [readFields, if_neg hnil]
    split
    · rename_i line hline
      rw [hcut] at hline
      cases hline
    · rename_i line after hline
      rw [hcut] at hline
      cases hline
      exact if_pos rfl
  | cons field fields ih =>
    have hfield := h field List.mem_cons_self
    have htext : recordText (field :: fields) ++ rest =
        fieldLine field ++ (recordText fields ++ rest) := by
      simp [recordText]
    have hne : fieldLine field ++ (recordText fields ++ rest) ≠ [] := by
      simp [fieldLine]
    have hcut := hfield.cut_line (recordText fields ++ rest)
    rw [htext, readFields, if_neg hne]
    split
    · rename_i line hline
      rw [hcut] at hline
      cases hline
    · rename_i line after hline
      rw [hcut] at hline
      cases hline
      rw [if_neg hfield.trim_ne_nil, hfield.parseFieldLine_eq, applyFields_cons, bind_assoc]
      congr 1
      funext middle
      exact ih (fun other hother => h other (List.mem_cons_of_mem _ hother)) middle

/-! ### One channel -/

/-- A step that succeeds under a condition. -/
def okIf {α : Type} (condition : Prop) [Decidable condition] (error : String) (a : α) :
    Except String α :=
  if condition then .ok a else .error error

theorem okIf_bind_eq_ok {α β : Type} {condition : Prop} [Decidable condition] {error : String}
    {a : α} {next : α → Except String β} {b : β} :
    (okIf condition error a >>= next) = .ok b ↔ condition ∧ next a = .ok b := by
  unfold okIf
  split
  · simp [ok_bind, *]
  · rename_i h
    constructor
    · intro hok
      cases hok
    · intro hok
      exact absurd hok.1 h

instance (numbers : Numbers) (x : Float) : Decidable (numbers.Exact x) :=
  inferInstanceAs (Decidable (_ ∧ _))

/-- The components of a color are finite numbers. -/
def FiniteColor (numbers : Numbers) (color : Color) : Prop :=
  (numbers.toDouble color.red).isFinite = true ∧ (numbers.toDouble color.green).isFinite = true ∧
    (numbers.toDouble color.blue).isFinite = true ∧ (numbers.toDouble color.alpha).isFinite = true

instance (numbers : Numbers) (color : Color) : Decidable (FiniteColor numbers color) :=
  inferInstanceAs (Decidable (_ ∧ _ ∧ _ ∧ _))

theorem parsed_print {α : Type} (numbers : Numbers) (error : String) (x : Float) (f : Float → α) :
    (parsedOr error (parseFinite numbers (numbers.print 17 x)) >>= fun value => .ok (f value)) =
      okIf (numbers.Exact x) error (f x) := by
  obtain ⟨hexact, hother⟩ := parseFinite_print numbers x
  unfold okIf
  split
  · rename_i h
    rw [hexact h]
    rfl
  · rename_i h
    rw [hother h]
    rfl

theorem parsed_hex {α : Type} (error : String) (value : Text) (f : Text → α) :
    (parsedOr error (decodeStringHex (encodeStringHex value)) >>= fun value => .ok (f value)) =
      .ok (f value) := by
  rw [decodeStringHex_encodeStringHex]
  rfl

theorem parsed_bool {α : Type} (error : String) (value : Bool) (f : Bool → α) :
    (parsedOr error (parseBool (boolText value)) >>= fun value => .ok (f value)) =
      .ok (f value) := by
  rw [parseBool_boolText]
  rfl

/-- A float is read back from its nine digits, or refused. -/
theorem parseComponent_print (numbers : Numbers) (x : Float32) :
    parseComponent numbers (numbers.print 9 (numbers.toDouble x)) =
      if (numbers.toDouble x).isFinite = true then some x else none := by
  have hne := numbers.print_ne_nil 9 (numbers.toDouble x)
  unfold parseComponent parseFinite
  rw [parseDouble_eq (plain_print numbers 9 _) hne]
  split
  · rename_i hfinite
    obtain ⟨y, hstod, hy, hfloat, -⟩ := numbers.stod_printFloat x hfinite
    rw [hstod, Option.bind_some]
    simp [hy, hfloat]
  · rename_i hfinite
    cases hstod : numbers.stod (numbers.print 9 (numbers.toDouble x)) with
    | none => rfl
    | some result =>
      obtain ⟨y, n⟩ := result
      have hy := numbers.stod_notFinite 9 _ y n (Bool.eq_false_iff.mpr hfinite) hstod
      rw [Option.bind_some]
      split
      · simp [hy]
      · rfl

theorem comma_not_mem_print (numbers : Numbers) (digits : ℕ) (x : Float) :
    comma ∉ numbers.print digits x :=
  fun hmem => absurd (numbers.numberByte_print digits x _ hmem) (by decide)

theorem plain_append {first second : Text} (hfirst : Plain first) (hsecond : Plain second) :
    Plain (first ++ second) := by
  intro byte hbyte
  obtain h | h := List.mem_append.mp hbyte
  · exact hfirst byte h
  · exact hsecond byte h

theorem plain_cons {byte : UInt8} {rest : Text} (hbyte : Lines.isSpace byte = false)
    (hrest : Plain rest) : Plain (byte :: rest) :=
  plain_append (show Plain [byte] by simpa [Plain] using hbyte) hrest

theorem plain_joined {separator : UInt8} (hseparator : Lines.isSpace separator = false)
    {items : List Text} (h : ∀ item ∈ items, Plain item) : Plain (joined separator items) := by
  induction items with
  | nil => exact fun _ h => nomatch h
  | cons item items ih =>
    cases items with
    | nil => exact h item List.mem_cons_self
    | cons next items =>
      apply plain_append (h item List.mem_cons_self)
      apply plain_cons hseparator
      exact ih fun other hother => h other (List.mem_cons_of_mem _ hother)

/-- The settings have a color that is written and not read. -/
def ReadableColor (numbers : Numbers) (color : Option Color) : Prop :=
  ∀ c ∈ color, FiniteColor numbers c

instance (numbers : Numbers) (color : Option Color) : Decidable (ReadableColor numbers color) :=
  inferInstanceAs (Decidable (∀ c ∈ color, _))

theorem parseColor_serializeColor (numbers : Numbers) (color : Option Color) :
    parseColor numbers (serializeColor numbers color) =
      if ReadableColor numbers color then some color else none := by
  cases color with
  | none => rfl
  | some color =>
    have hred := comma_not_mem_print numbers 9 (numbers.toDouble color.red)
    have hgreen := comma_not_mem_print numbers 9 (numbers.toDouble color.green)
    have hblue := comma_not_mem_print numbers 9 (numbers.toDouble color.blue)
    have hplain : Plain (serializeColor numbers (some color)) := by
      apply plain_joined (by decide)
      intro item hitem
      obtain ⟨component, -, rfl⟩ := List.mem_map.mp hitem
      exact plain_print numbers 9 _
    have hcomma : comma ∈ serializeColor numbers (some color) := by
      simp [serializeColor, joined]
    have hnone : serializeColor numbers (some color) ≠ text "none" := by
      intro heq
      rw [heq] at hcomma
      exact absurd hcomma (by decide)
    have hnil : serializeColor numbers (some color) ≠ [] := List.ne_nil_of_mem hcomma
    unfold parseColor
    rw [hplain.trim_eq, if_neg (not_or.mpr ⟨hnone, hnil⟩)]
    unfold parseComponents serializeColor
    simp only [joined, List.map_cons, List.map_nil, Lines.cut_append hred, parseComponent_print, ReadableColor,
      FiniteColor, Option.mem_def, Option.some.injEq, forall_eq', Option.bind_eq_bind]
    by_cases hr : (numbers.toDouble color.red).isFinite = true
    · by_cases hg : (numbers.toDouble color.green).isFinite = true
      · by_cases hb : (numbers.toDouble color.blue).isFinite = true
        · by_cases ha : (numbers.toDouble color.alpha).isFinite = true
          · simp [hr, hg, hb, ha, Lines.cut_append hgreen, Lines.cut_append hblue,
              parseComponent_print]
          · simp [hr, hg, hb, ha, Lines.cut_append hgreen, Lines.cut_append hblue,
              parseComponent_print]
        · simp [hr, hg, hb, Lines.cut_append hgreen, Lines.cut_append hblue, parseComponent_print]
      · simp [hr, hg, Lines.cut_append hgreen, parseComponent_print]
    · simp [hr]

/-- A line width the buffer leaves alone. -/
def SanitizedWidth (numbers : Numbers) (lineWidth : Option Float32) : Prop :=
  ∀ width ∈ lineWidth, (numbers.toDouble width).isFinite = true ∧
    sanitizeChannelLineWidth numbers (numbers.toDouble width) = width

theorem parseLineWidth_serializeLineWidth {lineWidth : Option Float32}
    (h : SanitizedWidth numbers lineWidth) :
    parseLineWidth numbers (serializeLineWidth numbers lineWidth) = some lineWidth := by
  cases lineWidth with
  | none => rfl
  | some width =>
    obtain ⟨hfinite, hwidth⟩ := h width rfl
    obtain ⟨y, hstod, hy, hfloat, hlow, hhigh⟩ := numbers.stod_printFloat width hfinite
    have hplain := plain_print numbers 9 (numbers.toDouble width)
    have hnil := numbers.print_ne_nil 9 (numbers.toDouble width)
    have hnone : numbers.print 9 (numbers.toDouble width) ≠ text "none" := by
      intro heq
      have hletter := numbers.numberByte_print 9 (numbers.toDouble width) 111
      rw [heq] at hletter
      exact absurd (hletter (by decide)) (by decide)
    have hsame : sanitizeChannelLineWidth numbers y = width := by
      -- `y` lies on the same side of 0.5 and of 8 as the width
      unfold sanitizeChannelLineWidth clamp at hwidth ⊢
      rw [hlow, hhigh]
      rw [if_neg (by simp [hfinite])] at hwidth
      rw [if_neg (by simp [hy])]
      by_cases hbelow : (numbers.toDouble width).lt (numbers.toDouble kMinChannelLineWidth) = true
      · rw [if_pos hbelow] at hwidth ⊢
        exact hwidth
      · rw [if_neg hbelow] at hwidth ⊢
        by_cases habove : (numbers.toDouble kMaxChannelLineWidth).lt (numbers.toDouble width) = true
        · rw [if_pos habove] at hwidth ⊢
          exact hwidth
        · rw [if_neg habove]
          exact hfloat
    show parseLineWidth numbers (numbers.print 9 (numbers.toDouble
      (sanitizeChannelLineWidth numbers (numbers.toDouble width)))) = _
    rw [hwidth]
    unfold parseLineWidth parseFinite
    rw [hplain.trim_eq, if_neg (not_or.mpr ⟨hnone, hnil⟩), parseDouble_eq hplain hnil, hstod,
      Option.bind_some]
    simp [hy, hsame]

/-- The fields of a channel, without its index. -/
def specFields (numbers : Numbers) (channel : ChannelSpec) : Fields :=
  [(text "label", encodeStringHex channel.label),
    (text "unit", encodeStringHex channel.unit),
    (text "ratio", numbers.print 17 channel.ratio),
    (text "scale", numbers.print 17 channel.scale),
    (text "offset", numbers.print 17 channel.offset),
    (text "color", serializeColor numbers channel.color),
    (text "line_width", serializeLineWidth numbers channel.lineWidth),
    (text "bit_display.enabled", boolText channel.bitDisplay.enabled),
    (text "bit_display.first_bit", unsignedText channel.bitDisplay.firstBit),
    (text "bit_display.bit_count", unsignedText channel.bitDisplay.bitCount),
    (text "bit_display.y_offset", numbers.print 17 channel.bitDisplay.yOffset),
    (text "bit_display.hover_readout", boolText channel.bitDisplay.hoverReadout)]

theorem channelFields_eq (numbers : Numbers) (index : ℕ) (channel : ChannelSpec) :
    channelFields numbers index channel =
      (specFields numbers channel).map fun field => (channelKey index field.1, field.2) :=
  rfl

/-- Settings whose bits and line width the buffer leaves alone. -/
structure SanitizedSpec (numbers : Numbers) (channel : ChannelSpec) : Prop where
  lineWidth : SanitizedWidth numbers channel.lineWidth
  firstBit : channel.bitDisplay.firstBit < kMaxBitDisplayCount
  bitCount : channel.bitDisplay.bitCount ≠ 0 ∧ channel.bitDisplay.bitCount ≤ kMaxBitDisplayCount
  bits : channel.bitDisplay.firstBit + channel.bitDisplay.bitCount ≤ kMaxBitDisplayCount

/-- What reading the settings of a channel depends on. -/
def ReadableSpec (numbers : Numbers) (channel : ChannelSpec) : Prop :=
  numbers.Exact channel.ratio ∧ numbers.Exact channel.scale ∧ numbers.Exact channel.offset ∧
    ReadableColor numbers channel.color ∧ channel.bitDisplay.firstBit ≤ 56 ∧
    numbers.Exact channel.bitDisplay.yOffset

instance (numbers : Numbers) (channel : ChannelSpec) : Decidable (ReadableSpec numbers channel) :=
  inferInstanceAs (Decidable (_ ∧ _ ∧ _ ∧ _ ∧ _ ∧ _))

def applySpecFields (numbers : Numbers) (fields : Fields) (channel : ChannelSpec) :
    Except String ChannelSpec :=
  fields.foldlM (fun channel field => parseChannelSpecField numbers field.1 field.2 channel) channel

theorem applySpecFields_cons (numbers : Numbers) (field : Text × Text) (fields : Fields)
    (channel : ChannelSpec) :
    applySpecFields numbers (field :: fields) channel =
      parseChannelSpecField numbers field.1 field.2 channel >>= applySpecFields numbers fields :=
  List.foldlM_cons

section SpecFields

variable (numbers : Numbers) (c : ChannelSpec)

theorem parse_label (value : Text) :
    parseChannelSpecField numbers (text "label") (encodeStringHex value) c =
      .ok { c with label := value } :=
  parsed_hex _ value _

theorem parse_unit (value : Text) :
    parseChannelSpecField numbers (text "unit") (encodeStringHex value) c =
      .ok { c with unit := value } :=
  parsed_hex _ value _

theorem parse_ratio (x : Float) :
    parseChannelSpecField numbers (text "ratio") (numbers.print 17 x) c =
      okIf (numbers.Exact x) "psraw plot_setup channel ratio 格式错误" { c with ratio := x } :=
  parsed_print numbers _ x _

theorem parse_scale (x : Float) :
    parseChannelSpecField numbers (text "scale") (numbers.print 17 x) c =
      okIf (numbers.Exact x) "psraw plot_setup channel scale 格式错误" { c with scale := x } :=
  parsed_print numbers _ x _

theorem parse_offset (x : Float) :
    parseChannelSpecField numbers (text "offset") (numbers.print 17 x) c =
      okIf (numbers.Exact x) "psraw plot_setup channel offset 格式错误" { c with offset := x } :=
  parsed_print numbers _ x _

theorem parse_color (color : Option Color) :
    parseChannelSpecField numbers (text "color") (serializeColor numbers color) c =
      okIf (ReadableColor numbers color) "psraw plot_setup channel color 格式错误"
        { c with color := color } := by
  show (parsedOr _ (parseColor numbers (serializeColor numbers color)) >>= _) = _
  rw [parseColor_serializeColor]
  unfold okIf
  split <;> rfl

theorem parse_lineWidth {lineWidth : Option Float32} (h : SanitizedWidth numbers lineWidth) :
    parseChannelSpecField numbers (text "line_width") (serializeLineWidth numbers lineWidth) c =
      .ok { c with lineWidth := lineWidth } := by
  show (parsedOr _ (parseLineWidth numbers (serializeLineWidth numbers lineWidth)) >>= _) = _
  rw [parseLineWidth_serializeLineWidth h]
  rfl

theorem parse_enabled (value : Bool) :
    parseChannelSpecField numbers (text "bit_display.enabled") (boolText value) c =
      .ok { c with bitDisplay := { c.bitDisplay with enabled := value } } :=
  parsed_bool _ value _

theorem parse_hoverReadout (value : Bool) :
    parseChannelSpecField numbers (text "bit_display.hover_readout") (boolText value) c =
      .ok { c with bitDisplay := { c.bitDisplay with hoverReadout := value } } :=
  parsed_bool _ value _

theorem parse_yOffset (x : Float) :
    parseChannelSpecField numbers (text "bit_display.y_offset") (numbers.print 17 x) c =
      okIf (numbers.Exact x) "psraw plot_setup channel bit_display.y_offset 格式错误"
        { c with bitDisplay := { c.bitDisplay with yOffset := x } } :=
  parsed_print numbers _ x _

/-- The first bit is checked with the number of bits the channel has so far. -/
theorem parse_firstBit {firstBit : UInt64} (h : firstBit < kMaxBitDisplayCount)
    (hcount : c.bitDisplay.bitCount = 8) :
    parseChannelSpecField numbers (text "bit_display.first_bit") (unsignedText firstBit) c =
      okIf (firstBit ≤ 56) "psraw plot_setup channel bit_display 范围超过 64 bit"
        { c with bitDisplay := { c.bitDisplay with firstBit := firstBit } } := by
  show (parsedOr _ ((parseUnsigned (unsignedText firstBit)).filter _) >>= _) = _
  have hlt : firstBit.toNat < 64 := UInt64.lt_iff_toNat_lt.mp h
  have hsum : (firstBit + 8).toNat = firstBit.toNat + 8 := by
    rw [UInt64.toNat_add]
    exact Nat.mod_eq_of_lt (by show firstBit.toNat + 8 < _; omega)
  have hrange : kMaxBitDisplayCount < firstBit + 8 ↔ ¬ firstBit ≤ 56 := by
    rw [UInt64.lt_iff_toNat_lt, UInt64.le_iff_toNat_le, hsum]
    show 64 < _ ↔ ¬ firstBit.toNat ≤ 56
    omega
  have hkeep : (some firstBit).filter (fun bit => decide (bit < kMaxBitDisplayCount)) =
      some firstBit := by
    simp [h]
  rw [parseUnsigned_unsignedText, hkeep]
  show checkBitRange _ = _
  unfold checkBitRange okIf
  dsimp only
  rw [hcount]
  by_cases hle : firstBit ≤ 56
  · rw [if_neg (by rw [hrange]; exact not_not.mpr hle), if_pos hle]
  · rw [if_pos (hrange.mpr hle), if_neg hle]

theorem parse_bitCount {bitCount : UInt64}
    (hcount : bitCount ≠ 0 ∧ bitCount ≤ kMaxBitDisplayCount) :
    parseChannelSpecField numbers (text "bit_display.bit_count") (unsignedText bitCount) c =
      okIf (c.bitDisplay.firstBit + bitCount ≤ kMaxBitDisplayCount)
        "psraw plot_setup channel bit_display 范围超过 64 bit"
        { c with bitDisplay := { c.bitDisplay with bitCount := bitCount } } := by
  show (parsedOr _ ((parseUnsigned (unsignedText bitCount)).filter _) >>= _) = _
  have hkeep : (some bitCount).filter
      (fun count => decide (count ≠ 0 ∧ count ≤ kMaxBitDisplayCount)) = some bitCount := by
    simp [hcount]
  rw [parseUnsigned_unsignedText, hkeep]
  show checkBitRange _ = _
  unfold checkBitRange okIf
  dsimp only
  by_cases hbits : c.bitDisplay.firstBit + bitCount ≤ kMaxBitDisplayCount
  · rw [if_neg (UInt64.not_lt.mpr hbits), if_pos hbits]
  · rw [if_pos (UInt64.not_le.mp hbits), if_neg hbits]

end SpecFields

/-- **The settings of a channel are read back when they are readable.** -/
theorem applySpecFields_eq_ok (h : SanitizedSpec numbers channel) (result : ChannelSpec) :
    applySpecFields numbers (specFields numbers channel) {} = .ok result ↔
      ReadableSpec numbers channel ∧ channel = result := by
  unfold applySpecFields specFields
  simp only [List.foldlM_cons, List.foldlM_nil]
  rw [parse_label, ok_bind, parse_unit, ok_bind, parse_ratio, okIf_bind_eq_ok]
  dsimp only
  rw [parse_scale, okIf_bind_eq_ok, parse_offset, okIf_bind_eq_ok, parse_color, okIf_bind_eq_ok]
  dsimp only
  rw [parse_lineWidth numbers _ h.lineWidth, ok_bind, parse_enabled, ok_bind,
    parse_firstBit numbers _ h.firstBit rfl, okIf_bind_eq_ok]
  dsimp only
  rw [parse_bitCount numbers _ h.bitCount, okIf_bind_eq_ok, parse_yOffset, okIf_bind_eq_ok,
    parse_hoverReadout, ok_bind]
  dsimp only
  have hbits := h.bits
  show _ ∧ _ ∧ _ ∧ _ ∧ _ ∧ _ ∧ _ ∧ Except.ok channel = Except.ok result ↔ _
  rw [Except.ok.injEq]
  unfold ReadableSpec
  tauto

/-! ### The channels of a setup -/

theorem channelKey_ne {name : Text} (h : name.take 8 ≠ text "channel.") (index : ℕ) (field : Text) :
    channelKey index field ≠ name := by
  intro heq
  apply h
  rw [← heq]
  rfl

theorem parseBaseEventField_channelKey (index : ℕ) (field value : Text) (decoded : DecodedEvent) :
    parseBaseEventField (channelKey index field) value decoded = .ignored := by
  unfold parseBaseEventField
  rw [if_neg (channelKey_ne (by decide) index field), if_neg (channelKey_ne (by decide) index field),
    if_neg (channelKey_ne (by decide) index field), if_neg (channelKey_ne (by decide) index field),
    if_neg (channelKey_ne (by decide) index field), if_neg (channelKey_ne (by decide) index field),
    if_neg (channelKey_ne (by decide) index field), if_neg (channelKey_ne (by decide) index field)]

theorem parsePlotSetupChannelField_channelKey (numbers : Numbers) (field value : Text)
    (hseen : decoded.state.plotChannelCountSeen = true)
    (hindex : index < decoded.state.plotChannelCount.toNat) :
    parsePlotSetupChannelField numbers (channelKey index field) value decoded =
      updateChannel (UInt64.ofNat index) (parseChannelSpecField numbers field value) decoded := by
  have hsmall : index < 18446744073709551616 :=
    hindex.trans decoded.state.plotChannelCount.toNat_lt
  have hstarts : kChannelPrefix.isPrefixOf (channelKey index field) = true :=
    List.isPrefixOf_iff_prefix.mpr ⟨Decimal.render index ++ dot :: field, rfl⟩
  have hdrop : (channelKey index field).drop kChannelPrefix.length =
      Decimal.render index ++ dot :: field := rfl
  have hdot : dot ∉ Decimal.render index := fun hmem =>
    absurd (Decimal.isDigit_of_mem_render hmem) (by decide)
  have hlt : UInt64.ofNat index < decoded.state.plotChannelCount := by
    rw [UInt64.lt_iff_toNat_lt, UInt64.toNat_ofNat_of_lt' hsmall]
    exact hindex
  have hkeep : (some (UInt64.ofNat index)).filter
      (fun other => decide (other < decoded.state.plotChannelCount)) =
        some (UInt64.ofNat index) := by
    simp [hlt]
  unfold parsePlotSetupChannelField
  rw [if_neg (by simp [hstarts]), if_neg (by simp [hseen]), hdrop, Lines.cut_append hdot]
  dsimp only
  rw [parseUnsigned_render hsmall, hkeep]

def DecodedEvent.withChannels (decoded : DecodedEvent) (channels : List ChannelSpec) :
    DecodedEvent :=
  { decoded with
    event := { decoded.event with plotSetup := { decoded.event.plotSetup with channels } } }

/-- A record of a setup whose number of channels has been read. -/
structure AwaitsChannels (decoded : DecodedEvent) (count : ℕ) : Prop where
  type : decoded.event.type = .plotSetup
  seen : decoded.state.plotChannelCountSeen = true
  count : decoded.state.plotChannelCount.toNat = count

theorem updateChannel_of_ok {index : UInt64} {update : ChannelSpec → Except String ChannelSpec}
    (h : update (channels.getD index.toNat default) = .ok channel) :
    updateChannel index update (decoded.withChannels channels) =
      .handled (decoded.withChannels (channels.set index.toNat channel)) := by
  unfold updateChannel
  dsimp only [DecodedEvent.withChannels]
  rw [h]

theorem updateChannel_of_error {index : UInt64} {update : ChannelSpec → Except String ChannelSpec}
    {error : String} (h : update (channels.getD index.toNat default) = .error error) :
    updateChannel index update (decoded.withChannels channels) = .failed error := by
  unfold updateChannel
  dsimp only [DecodedEvent.withChannels]
  rw [h]

theorem parseDecodedEventField_channel (numbers : Numbers) {count : ℕ}
    (h : AwaitsChannels decoded count) (hindex : index < count) (field value : Text) :
    parseDecodedEventField numbers (channelKey index field) value (decoded.withChannels channels) =
      (parseChannelSpecField numbers field value (channels.getD index default)).map fun channel =>
        decoded.withChannels (channels.set index channel) := by
  have hsmall : index < 18446744073709551616 := by
    have := decoded.state.plotChannelCount.toNat_lt
    rw [h.count] at this
    omega
  have hfield := parsePlotSetupChannelField_channelKey numbers field value
    (show (decoded.withChannels channels).state.plotChannelCountSeen = true from h.seen)
    (show index < (decoded.withChannels channels).state.plotChannelCount.toNat from
      h.count ▸ hindex)
  have htype : (decoded.withChannels channels).event.type = .plotSetup := h.type
  unfold parseDecodedEventField
  rw [if_neg (channelKey_ne (by decide) index field), parseBaseEventField_channelKey]
  dsimp only
  unfold parsePlotSetupField
  dsimp only
  rw [if_neg (not_not.mpr htype), if_neg (channelKey_ne (by decide) index field),
    if_neg (channelKey_ne (by decide) index field), if_neg (channelKey_ne (by decide) index field),
    hfield]
  have hnat : (UInt64.ofNat index).toNat = index := UInt64.toNat_ofNat_of_lt' hsmall
  cases hparsed : parseChannelSpecField numbers field value (channels.getD index default) with
  | ok channel =>
    rw [updateChannel_of_ok (by rw [hnat]; exact hparsed), hnat]
    rfl
  | error error =>
    rw [updateChannel_of_error (by rw [hnat]; exact hparsed)]
    rfl

/-- The fields of one channel change that channel. -/
theorem applyFields_channelFields (numbers : Numbers) {count : ℕ} (h : AwaitsChannels decoded count)
    (hindex : index < count) (fields : Fields) (hlength : channels.length = count) :
    applyFields numbers (fields.map fun field => (channelKey index field.1, field.2))
        (decoded.withChannels channels) =
      (applySpecFields numbers fields (channels.getD index default)).map fun channel =>
        decoded.withChannels (channels.set index channel) := by
  induction fields generalizing channels with
  | nil =>
    have hself : channels.set index (channels.getD index default) = channels := by
      rw [List.getD_eq_getElem _ _ (hlength ▸ hindex), List.set_getElem_self]
    show Except.ok (decoded.withChannels channels) = Except.ok (decoded.withChannels _)
    rw [hself]
  | cons field fields ih =>
    rw [List.map_cons, applyFields_cons, parseDecodedEventField_channel numbers h hindex,
      applySpecFields_cons]
    cases parseChannelSpecField numbers field.1 field.2 (channels.getD index default) with
    | error error => rfl
    | ok channel =>
      have hget : (channels.set index channel).getD index default = channel := by
        rw [List.getD_eq_getElem _ _ (by rw [List.length_set, hlength]; exact hindex)]
        exact List.getElem_set_self _
      show applyFields numbers _ (decoded.withChannels (channels.set index channel)) =
        (applySpecFields numbers fields channel).map _
      rw [ih (by rw [List.length_set, hlength]), hget]
      simp only [List.set_set]

/-- **The fields of the channels give the channels** when all of them are readable. -/
theorem applyFields_channelsFields {count : ℕ} (h : AwaitsChannels decoded count)
    {earlier : List ChannelSpec} (hcount : earlier.length + channels.length = count)
    (hsanitized : ∀ channel ∈ channels, SanitizedSpec numbers channel) (result : DecodedEvent) :
    applyFields numbers (channelsFields numbers earlier.length channels)
        (decoded.withChannels (earlier ++ List.replicate channels.length default)) = .ok result ↔
      (∀ channel ∈ channels, ReadableSpec numbers channel) ∧
        decoded.withChannels (earlier ++ channels) = result := by
  induction channels generalizing earlier with
  | nil =>
    show Except.ok (decoded.withChannels (earlier ++ [])) = .ok result ↔ _
    rw [Except.ok.injEq]
    simp
  | cons channel channels ih =>
    rw [List.length_cons] at hcount
    have hindex : earlier.length < count := by omega
    have hlength : (earlier ++ List.replicate (channel :: channels).length
        (default : ChannelSpec)).length = count := by
      simp
      omega
    have hget : (earlier ++ List.replicate (channel :: channels).length
        (default : ChannelSpec)).getD earlier.length default = {} := by
      simp [List.replicate_succ]
      rfl
    have hset (c : ChannelSpec) : (earlier ++ List.replicate (channel :: channels).length
        default).set earlier.length c = (earlier ++ [c]) ++ List.replicate channels.length default := by
      simp [List.replicate_succ]
    have hrest := @ih (earlier ++ [channel]) (by simp; omega)
      fun other hother => hsanitized other (List.mem_cons_of_mem _ hother)
    have hfirst := applySpecFields_eq_ok (hsanitized channel List.mem_cons_self)
    rw [List.length_append, List.length_singleton] at hrest
    rw [channelsFields, applyFields_append, channelFields_eq,
      applyFields_channelFields numbers h hindex _ hlength, hget, bind_eq_ok, List.forall_mem_cons]
    constructor
    · rintro ⟨middle, hmiddle, hok⟩
      cases hspec : applySpecFields numbers (specFields numbers channel) {} with
      | error error =>
        rw [hspec] at hmiddle
        cases hmiddle
      | ok c =>
        obtain ⟨hreadable, rfl⟩ := (hfirst c).mp hspec
        rw [hspec] at hmiddle
        cases hmiddle
        dsimp only at hok
        rw [hset] at hok
        obtain ⟨hothers, hresult⟩ := hrest.mp hok
        exact ⟨⟨hreadable, hothers⟩, by simpa using hresult⟩
    · rintro ⟨⟨hreadable, hothers⟩, hresult⟩
      rw [(hfirst channel).mpr ⟨hreadable, rfl⟩]
      refine ⟨_, rfl, ?_⟩
      dsimp only
      rw [hset]
      exact hrest.mpr ⟨hothers, by simpa using hresult⟩

/-! ### A whole setup -/

/-- What reading the view depends on. -/
def ReadableView (numbers : Numbers) (view : ViewConfig) : Prop :=
  numbers.Exact view.timeScale ∧ numbers.Exact view.verticalMin ∧ numbers.Exact view.verticalMax

/-- The record of a setup, as far as it has been read. -/
def decodedSetup (timestampMs sequence : UInt64) (setup : RawCapturePlotSetupEventData)
    (state : DecodedEventState) : DecodedEvent where
  event := { type := .plotSetup, timestampMs, sequence, plotSetup := setup }
  state := state

section Handled

variable {numbers : Numbers} {key value : Text} {decoded result : DecodedEvent}

theorem base_handled (hkey : key ≠ text "view.display_formula")
    (h : parseBaseEventField key value decoded = .handled result) :
    parseDecodedEventField numbers key value decoded = .ok result := by
  unfold parseDecodedEventField
  rw [if_neg hkey, h]

theorem setup_handled (hkey : key ≠ text "view.display_formula")
    (hbase : parseBaseEventField key value decoded = .ignored)
    (h : parsePlotSetupField numbers key value decoded = .handled result) :
    parseDecodedEventField numbers key value decoded = .ok result := by
  unfold parseDecodedEventField
  rw [if_neg hkey, hbase]
  dsimp only
  rw [h]

end Handled

theorem handledOr_unsigned (error : String) (value : UInt64) (f : UInt64 → DecodedEvent) :
    handledOr error ((parseUnsigned (unsignedText value)).map f) = .handled (f value) := by
  rw [parseUnsigned_unsignedText]
  rfl

theorem handledOr_hex (error : String) (value : Text) (f : Text → DecodedEvent) :
    handledOr error ((decodeStringHex (encodeStringHex value)).map f) = .handled (f value) := by
  rw [decodeStringHex_encodeStringHex]
  rfl

theorem handledOr_bool (error : String) (value : Bool) (f : Bool → DecodedEvent) :
    handledOr error ((parseBool (boolText value)).map f) = .handled (f value) := by
  rw [parseBool_boolText]
  rfl

section SetupFields

variable (numbers : Numbers) (timestampMs sequence : UInt64) (setup : RawCapturePlotSetupEventData)
  (state : DecodedEventState)

/-- A number of the view. -/
theorem view_number {key : Text} {error : String} (f : Float → ViewConfig)
    (hkey : key ≠ text "view.display_formula")
    (hbase : ∀ value, parseBaseEventField key value (decodedSetup timestampMs sequence setup state) =
      .ignored)
    (h : ∀ value, parsePlotSetupField numbers key value
        (decodedSetup timestampMs sequence setup state) =
      handledOr error ((parseFinite numbers value).map fun x =>
        decodedSetup timestampMs sequence { setup with view := f x } state)) (x : Float) :
    parseDecodedEventField numbers key (numbers.print 17 x)
        (decodedSetup timestampMs sequence setup state) =
      okIf (numbers.Exact x) error
        (decodedSetup timestampMs sequence { setup with view := f x } state) := by
  obtain ⟨hexact, hother⟩ := parseFinite_print numbers x
  unfold parseDecodedEventField okIf
  rw [if_neg hkey, hbase]
  dsimp only
  rw [h]
  by_cases hx : numbers.Exact x
  · rw [hexact hx, if_pos hx]
    rfl
  · rw [hother hx, if_neg hx]
    rfl

theorem view_timeScale (x : Float) :
    parseDecodedEventField numbers (text "view.time_scale") (numbers.print 17 x)
        (decodedSetup timestampMs sequence setup state) =
      okIf (numbers.Exact x) "psraw plot_setup view.time_scale 格式错误" (decodedSetup timestampMs
        sequence { setup with view := { setup.view with timeScale := x } } state) :=
  view_number numbers timestampMs sequence setup state (fun timeScale => { setup.view with timeScale })
    (by decide) (fun _ => rfl) (fun _ => rfl) x

theorem view_verticalMin (x : Float) :
    parseDecodedEventField numbers (text "view.vertical_min") (numbers.print 17 x)
        (decodedSetup timestampMs sequence setup state) =
      okIf (numbers.Exact x) "psraw plot_setup view.vertical_min 格式错误" (decodedSetup timestampMs
        sequence { setup with view := { setup.view with verticalMin := x } } state) :=
  view_number numbers timestampMs sequence setup state (fun verticalMin => { setup.view with verticalMin })
    (by decide) (fun _ => rfl) (fun _ => rfl) x

theorem view_verticalMax (x : Float) :
    parseDecodedEventField numbers (text "view.vertical_max") (numbers.print 17 x)
        (decodedSetup timestampMs sequence setup state) =
      okIf (numbers.Exact x) "psraw plot_setup view.vertical_max 格式错误" (decodedSetup timestampMs
        sequence { setup with view := { setup.view with verticalMax := x } } state) :=
  view_number numbers timestampMs sequence setup state (fun verticalMax => { setup.view with verticalMax })
    (by decide) (fun _ => rfl) (fun _ => rfl) x

theorem view_timeUnit (value : Text) :
    parseDecodedEventField numbers (text "view.time_unit") (encodeStringHex value)
        (decodedSetup timestampMs sequence setup state) =
      .ok (decodedSetup timestampMs sequence
        { setup with view := { setup.view with timeUnit := value } } state) :=
  setup_handled (by decide) rfl (handledOr_hex _ value _)

theorem view_verticalUnit (value : Text) :
    parseDecodedEventField numbers (text "view.vertical_unit") (encodeStringHex value)
        (decodedSetup timestampMs sequence setup state) =
      .ok (decodedSetup timestampMs sequence
        { setup with view := { setup.view with verticalUnit := value } } state) :=
  setup_handled (by decide) rfl (handledOr_hex _ value _)

theorem view_historyLimit (value : UInt64) :
    parseDecodedEventField numbers (text "view.history_limit") (unsignedText value)
        (decodedSetup timestampMs sequence setup state) =
      .ok (decodedSetup timestampMs sequence
        { setup with view := { setup.view with historyLimit := value } } state) :=
  setup_handled (by decide) rfl (handledOr_unsigned _ value _)

theorem view_displayFormula (formula : WaveDisplayFormula) :
    parseDecodedEventField numbers (text "view.display_formula") (displayFormulaText formula)
        (decodedSetup timestampMs sequence setup state) =
      .ok (decodedSetup timestampMs sequence
        { setup with view := { setup.view with displayFormula := formula } } state) := by
  cases formula <;> rfl

theorem setup_source (value : Text) :
    parseDecodedEventField numbers (text "source") (encodeStringHex value)
        (decodedSetup timestampMs sequence setup state) =
      .ok (decodedSetup timestampMs sequence { setup with source := value } state) :=
  setup_handled (by decide) rfl (handledOr_hex _ value _)

theorem setup_resetHistory (value : Bool) :
    parseDecodedEventField numbers (text "reset_history") (boolText value)
        (decodedSetup timestampMs sequence setup state) =
      .ok (decodedSetup timestampMs sequence { setup with resetHistory := value } state) :=
  setup_handled (by decide) rfl (handledOr_bool _ value _)

theorem setup_channelCount {count : ℕ} (hpositive : count ≠ 0)
    (hsmall : count < 18446744073709551616) :
    parseDecodedEventField numbers (text "channel_count") (Decimal.render count)
        (decodedSetup timestampMs sequence setup state) =
      .ok (decodedSetup timestampMs sequence
        { setup with channels := resizedChannels count setup.channels }
        { state with
          plotChannelCountSeen := true, plotChannelCount := UInt64.ofNat count }) := by
  have hnat : (UInt64.ofNat count).toNat = count := UInt64.toNat_ofNat_of_lt' hsmall
  have hne : UInt64.ofNat count ≠ 0 := by
    intro hzero
    rw [hzero] at hnat
    exact hpositive hnat.symm
  have hkeep : (some (UInt64.ofNat count)).filter (fun count => decide (count ≠ 0)) =
      some (UInt64.ofNat count) := by
    simp [hne]
  apply setup_handled (by decide) rfl
  show handledOr _ (((parseUnsigned (Decimal.render count)).filter _).map _) = _
  rw [parseUnsigned_render hsmall, hkeep]
  show EventFieldParseResult.handled (decodedSetup _ _
    { setup with channels := resizedChannels (UInt64.ofNat count).toNat setup.channels } _) = _
  rw [hnat]
  rfl

theorem setup_sequence (value : UInt64) :
    parseDecodedEventField numbers (text "sequence") (unsignedText value)
        (decodedSetup timestampMs sequence setup state) =
      .ok (decodedSetup timestampMs value setup state) :=
  base_handled (by decide) (handledOr_unsigned _ value _)

theorem setup_timestampMs (value : UInt64) :
    parseDecodedEventField numbers (text "timestamp_ms") (unsignedText value)
        (decodedSetup timestampMs sequence setup state) =
      .ok (decodedSetup value sequence setup state) :=
  base_handled (by decide) (handledOr_unsigned _ value _)

end SetupFields

/-- **The fields of a view give the view** when its numbers are exact. -/
theorem applyFields_viewFields (timestampMs sequence : UInt64)
    (setup : RawCapturePlotSetupEventData) (state : DecodedEventState) (view : ViewConfig)
    (result : DecodedEvent) :
    applyFields numbers (viewFields numbers view) (decodedSetup timestampMs sequence setup state) =
        .ok result ↔
      ReadableView numbers view ∧
        decodedSetup timestampMs sequence { setup with view := view } state = result := by
  unfold applyFields viewFields
  simp only [List.foldlM_cons, List.foldlM_nil]
  rw [view_timeScale, okIf_bind_eq_ok, view_timeUnit, ok_bind, view_verticalMin, okIf_bind_eq_ok]
  dsimp only
  rw [view_verticalMax, okIf_bind_eq_ok, view_verticalUnit, ok_bind, view_historyLimit, ok_bind,
    view_displayFormula, ok_bind]
  show _ ∧ _ ∧ _ ∧ Except.ok (decodedSetup timestampMs sequence { setup with view := view } state) =
    Except.ok result ↔ _
  rw [Except.ok.injEq]
  unfold ReadableView
  tauto

/-- What reading the record of a setup depends on. -/
def ReadableSetup (numbers : Numbers) (setup : RawCapturePlotSetupEventData) : Prop :=
  (∀ channel ∈ setup.channels, ReadableSpec numbers channel) ∧ ReadableView numbers setup.view

instance (numbers : Numbers) (setup : RawCapturePlotSetupEventData) :
    Decidable (ReadableSetup numbers setup) :=
  inferInstanceAs (Decidable ((∀ channel ∈ setup.channels, _) ∧ _ ∧ _ ∧ _))

/-- **The fields of a setup give the setup when it is readable.** -/
theorem applyFields_plotSetupFields {event : RawCaptureEvent} (hne : event.plotSetup.channels ≠ [])
    (hsmall : event.plotSetup.channels.length < 18446744073709551616)
    (hsanitized : ∀ channel ∈ event.plotSetup.channels, SanitizedSpec numbers channel)
    (result : DecodedEvent) :
    applyFields numbers (plotSetupFields numbers event) { event := { type := .plotSetup } } =
        .ok result ↔
      ReadableSetup numbers event.plotSetup ∧
        decodedSetup event.timestampMs event.sequence event.plotSetup
          { plotChannelCountSeen := true
            plotChannelCount := UInt64.ofNat event.plotSetup.channels.length } = result := by
  have hzero : event.plotSetup.channels.length ≠ 0 := by
    rwa [Ne, List.length_eq_zero_iff]
  have hstart : ({ event := { type := .plotSetup } } : DecodedEvent) = decodedSetup 0 0 {} {} := rfl
  have hawaits (setup : RawCapturePlotSetupEventData) :
      AwaitsChannels (decodedSetup event.timestampMs event.sequence setup
        { plotChannelCountSeen := true
          plotChannelCount := UInt64.ofNat event.plotSetup.channels.length })
        event.plotSetup.channels.length :=
    ⟨rfl, rfl, UInt64.toNat_ofNat_of_lt' hsmall⟩
  have hresized : resizedChannels event.plotSetup.channels.length [] =
      [] ++ List.replicate event.plotSetup.channels.length default := by
    simp [resizedChannels]
  have hcount : ([] : List ChannelSpec).length + event.plotSetup.channels.length =
      event.plotSetup.channels.length := Nat.zero_add _
  have hchannels := applyFields_channelsFields (hawaits { event.plotSetup with view := {} }) hcount
    hsanitized
  unfold plotSetupFields
  rw [applyFields_append, applyFields_append, hstart, applyFields_cons, setup_sequence, ok_bind,
    applyFields_cons, setup_timestampMs, ok_bind, applyFields_cons, setup_source, ok_bind,
    applyFields_cons, setup_resetHistory, ok_bind, applyFields_cons,
    setup_channelCount _ _ _ _ _ hzero hsmall, ok_bind, hresized, bind_eq_ok]
  constructor
  · rintro ⟨middle, hmiddle, hok⟩
    obtain ⟨hreadable, rfl⟩ := (hchannels middle).mp hmiddle
    obtain ⟨hview, hresult⟩ := (applyFields_viewFields _ _ _ _ _ _).mp hok
    exact ⟨⟨hreadable, hview⟩, hresult⟩
  · rintro ⟨⟨hreadable, hview⟩, hresult⟩
    refine ⟨_, (hchannels _).mpr ⟨hreadable, rfl⟩, ?_⟩
    exact (applyFields_viewFields _ _ _ _ _ _).mpr ⟨hview, hresult⟩

/-! ### Records -/

/-- The names of the fields of a record, and those of a channel's fields. -/
def fieldNames : List String :=
  ["event", "sequence", "timestamp_ms", "source", "reset_history", "channel_count",
    "view.time_scale", "view.time_unit", "view.vertical_min", "view.vertical_max",
    "view.vertical_unit", "view.history_limit", "view.display_formula", "label", "unit", "ratio",
    "scale", "offset", "color", "line_width", "bit_display.enabled", "bit_display.first_bit",
    "bit_display.bit_count", "bit_display.y_offset", "bit_display.hover_readout", "channel.",
    "endpoint", "write_status", "size", "frame", "length", "channel_map"]

theorem goodKey_fieldNames : ∀ name ∈ fieldNames, GoodKey (text name) := by
  have hall : (fieldNames.all fun name => !(text name).isEmpty &&
      (text name).all fun byte => !Lines.isSpace byte && byte != colon) = true := by
    decide +kernel
  exact fun name hname => goodKey_of_all (List.all_eq_true.mp hall name hname)

theorem goodKey_channelKey {name : Text}
    (h : ∀ byte ∈ name, Lines.isSpace byte = false ∧ byte ≠ colon) (index : ℕ) :
    GoodKey (channelKey index name) := by
  refine ⟨List.cons_ne_nil _ _, fun byte hbyte => ?_⟩
  have hstarts := (goodKey_fieldNames "channel." (by simp [fieldNames])).2
  unfold channelKey at hbyte
  rw [List.mem_append, List.mem_append, List.mem_cons] at hbyte
  obtain (hbyte | hbyte) | rfl | hbyte := hbyte
  · exact hstarts byte hbyte
  · refine ⟨plain_render index byte hbyte, ?_⟩
    rintro rfl
    exact absurd (Decimal.isDigit_of_mem_render hbyte) (by decide)
  · decide
  · exact h byte hbyte

theorem plain_none : Plain (text "none") := plain_of_all (by decide +kernel)

theorem plain_serializeColor (numbers : Numbers) (color : Option Color) :
    Plain (serializeColor numbers color) := by
  cases color with
  | none => exact plain_none
  | some color =>
    apply plain_joined (by decide)
    intro item hitem
    obtain ⟨component, -, rfl⟩ := List.mem_map.mp hitem
    exact plain_print numbers 9 _

theorem plain_serializeLineWidth (numbers : Numbers) (lineWidth : Option Float32) :
    Plain (serializeLineWidth numbers lineWidth) := by
  cases lineWidth with
  | none => exact plain_none
  | some width => exact plain_print numbers 9 _

theorem goodField_channelFields (h : field ∈ channelFields numbers index channel) :
    GoodField field := by
  simp only [channelFields, List.mem_cons, List.not_mem_nil, or_false] at h
  obtain rfl | rfl | rfl | rfl | rfl | rfl | rfl | rfl | rfl | rfl | rfl | rfl := h
  all_goals
    refine GoodField.of_plain
      (goodKey_channelKey (goodKey_fieldNames _ (by simp [fieldNames])).2 index) ?_
  · exact plain_hex _
  · exact plain_hex _
  · exact plain_print _ _ _
  · exact plain_print _ _ _
  · exact plain_print _ _ _
  · exact plain_serializeColor _ _
  · exact plain_serializeLineWidth _ _
  · exact plain_boolText _
  · exact plain_render _
  · exact plain_render _
  · exact plain_print _ _ _
  · exact plain_boolText _

theorem goodField_channelsFields (h : field ∈ channelsFields numbers index channels) :
    GoodField field := by
  induction channels generalizing index with
  | nil => exact nomatch h
  | cons channel channels ih =>
    obtain h | h := List.mem_append.mp h
    · exact goodField_channelFields h
    · exact ih h

theorem plain_displayFormulaText (formula : WaveDisplayFormula) :
    Plain (displayFormulaText formula) := by
  cases formula <;> exact plain_of_all (by decide +kernel)

theorem goodField_viewFields {view : ViewConfig} (h : field ∈ viewFields numbers view) :
    GoodField field := by
  simp only [viewFields, List.mem_cons, List.not_mem_nil, or_false] at h
  obtain rfl | rfl | rfl | rfl | rfl | rfl | rfl := h
  all_goals refine GoodField.of_plain (goodKey_fieldNames _ (by simp [fieldNames])) ?_
  · exact plain_print _ _ _
  · exact plain_hex _
  · exact plain_print _ _ _
  · exact plain_print _ _ _
  · exact plain_hex _
  · exact plain_render _
  · exact plain_displayFormulaText _

theorem goodField_plotSetupFields {event : RawCaptureEvent}
    (h : field ∈ plotSetupFields numbers event) : GoodField field := by
  unfold plotSetupFields at h
  rw [List.mem_append, List.mem_append] at h
  obtain (h | h) | h := h
  · simp only [List.mem_cons, List.not_mem_nil, or_false] at h
    obtain rfl | rfl | rfl | rfl | rfl := h
    all_goals refine GoodField.of_plain (goodKey_fieldNames _ (by simp [fieldNames])) ?_
    · exact plain_render _
    · exact plain_render _
    · exact plain_hex _
    · exact plain_boolText _
    · exact plain_render _
  · exact goodField_channelsFields h
  · exact goodField_viewFields h

/-- A record that begins with its type and goes on with these fields. -/
structure Recorded (name : Text) (type : RawCaptureEventType) (fields : Fields) : Prop where
  goodName : GoodField (text "event", name)
  decoded : decodeEventType (Lines.trim (fieldText (text "event", name))) = .ok { type := type }
  goodFields : ∀ field ∈ fields, GoodField field

section Recorded

variable {numbers : Numbers} {name : Text} {type : RawCaptureEventType} {fields : Fields}

theorem Recorded.cut_eq (h : Recorded name type fields) (rest : Text) :
    Lines.cut lineFeed (recordText ((text "event", name) :: fields) ++ rest) =
      (fieldText (text "event", name), some (recordText fields ++ rest)) := by
  have htext : recordText ((text "event", name) :: fields) ++ rest =
      fieldLine (text "event", name) ++ (recordText fields ++ rest) := by
    simp [recordText]
  rw [htext]
  exact h.goodName.cut_line _

theorem Recorded.decodeRecord_of_error (h : Recorded name type fields) (rest : Text)
    {error : String}
    (happly : applyFields numbers fields { event := { type := type } } = .error error) :
    decodeRecord numbers (Lines.trim (fieldText (text "event", name)))
      (some (recordText fields ++ rest)) = .error (.refused error) := by
  unfold decodeRecord
  rw [h.decoded]
  dsimp only
  rw [readFields_recordText h.goodFields, happly]
  rfl

theorem Recorded.decodeRecord_of_ok (h : Recorded name type fields) (rest : Text)
    {decoded : DecodedEvent}
    (happly : applyFields numbers fields { event := { type := type } } = .ok decoded) :
    decodeRecord numbers (Lines.trim (fieldText (text "event", name)))
      (some (recordText fields ++ rest)) = finalizeDecodedEvent (some rest) decoded := by
  unfold decodeRecord
  rw [h.decoded]
  dsimp only
  rw [readFields_recordText h.goodFields, happly]
  rfl

/-- A record whose line was cut off is decoded, and then what it leaves. -/
theorem decodeEventStream_of_ok {bytes line after left : Text} {event : RawCaptureEvent}
    (hcut : Lines.cut lineFeed bytes = (line, some after)) (hline : Lines.trim line ≠ [])
    (hrecord : decodeRecord numbers (Lines.trim line) (some after) = .ok (event, some left)) :
    decodeEventStream numbers bytes =
      decodeEventStream numbers left >>= fun events => .ok (event :: events) := by
  have hne : bytes ≠ [] := by
    rintro rfl
    cases hcut
  rw [decodeEventStream, if_neg hne]
  split
  · rename_i hcut'
    rw [hcut] at hcut'
    cases hcut'
  · rename_i hcut'
    rw [hcut] at hcut'
    cases hcut'
    rw [if_neg hline]
    split
    · rename_i hrecord'
      rw [hrecord] at hrecord'
      cases hrecord'
    · rename_i hrecord'
      rw [hrecord] at hrecord'
      cases hrecord'
    · rename_i hrecord'
      rw [hrecord] at hrecord'
      cases hrecord'
      rfl

theorem decodeEventStream_of_error {bytes line after : Text} {fault : Fault}
    (hcut : Lines.cut lineFeed bytes = (line, some after)) (hline : Lines.trim line ≠ [])
    (hrecord : decodeRecord numbers (Lines.trim line) (some after) = .error fault) :
    decodeEventStream numbers bytes = .error fault := by
  have hne : bytes ≠ [] := by
    rintro rfl
    cases hcut
  rw [decodeEventStream, if_neg hne]
  split
  · rename_i hcut'
    rw [hcut] at hcut'
    cases hcut'
  · rename_i hcut'
    rw [hcut] at hcut'
    cases hcut'
    rw [if_neg hline]
    split
    · rename_i hrecord'
      rw [hrecord] at hrecord'
      cases hrecord'
      rfl
    · rename_i hrecord'
      rw [hrecord] at hrecord'
      cases hrecord'
    · rename_i hrecord'
      rw [hrecord] at hrecord'
      cases hrecord'

theorem decodeEventStream_nil : decodeEventStream numbers [] = .ok [] := by
  rw [decodeEventStream, if_pos rfl]

/-- **A record, followed by anything, is read as its event.** -/
theorem Recorded.decodeEventStream_eq (h : Recorded name type fields) {rest left : Text}
    {decoded : DecodedEvent} {event : RawCaptureEvent}
    (happly : applyFields numbers fields { event := { type := type } } = .ok decoded)
    (hfinal : finalizeDecodedEvent (some rest) decoded = .ok (event, some left)) :
    decodeEventStream numbers (recordText ((text "event", name) :: fields) ++ rest) =
      decodeEventStream numbers left >>= fun events => .ok (event :: events) :=
  decodeEventStream_of_ok (h.cut_eq rest) h.goodName.trim_ne_nil
    ((h.decodeRecord_of_ok rest happly).trans hfinal)

end Recorded

theorem recorded_plotSetup (numbers : Numbers) (event : RawCaptureEvent) :
    Recorded (text "plot_setup") .plotSetup (plotSetupFields numbers event) where
  goodName := .of_plain (goodKey_fieldNames "event" (by simp [fieldNames]))
    (plain_of_all (by rfl))
  decoded := by rfl
  goodFields := fun _ => goodField_plotSetupFields

/-- What the record of a setup carries. -/
def setupEvent (event : RawCaptureEvent) : RawCaptureEvent :=
  { type := .plotSetup, timestampMs := event.timestampMs, sequence := event.sequence,
    plotSetup := event.plotSetup }

section Setup

variable {numbers : Numbers} {event : RawCaptureEvent} (hne : event.plotSetup.channels ≠ [])
  (hsmall : event.plotSetup.channels.length < 18446744073709551616)
  (hsanitized : ∀ channel ∈ event.plotSetup.channels, SanitizedSpec numbers channel)

include hne hsmall hsanitized

/-- **The record of a readable setup, followed by anything, is read as its event.** -/
theorem decodeEventStream_setup (hreadable : ReadableSetup numbers event.plotSetup) (rest : Text) :
    decodeEventStream numbers (encodePlotSetupRecord numbers event ++ rest) =
      decodeEventStream numbers rest >>= fun events => .ok (setupEvent event :: events) :=
  (recorded_plotSetup numbers event).decodeEventStream_eq
    ((applyFields_plotSetupFields hne hsmall hsanitized _).mpr ⟨hreadable, rfl⟩) rfl

/-- The record of another setup is refused. -/
theorem decodeEventStream_setup_of_not (hreadable : ¬ ReadableSetup numbers event.plotSetup)
    (rest : Text) :
    ∃ error, decodeEventStream numbers (encodePlotSetupRecord numbers event ++ rest) =
      .error (.refused error) := by
  have hrecorded := recorded_plotSetup numbers event
  cases happly : applyFields numbers (plotSetupFields numbers event)
      { event := { type := .plotSetup } } with
  | ok decoded =>
    exact absurd ((applyFields_plotSetupFields hne hsmall hsanitized _).mp happly).1 hreadable
  | error error =>
    exact ⟨error, decodeEventStream_of_error (hrecorded.cut_eq rest) hrecorded.goodName.trim_ne_nil
      (hrecorded.decodeRecord_of_error rest happly)⟩

end Setup

/-! ### Setups the buffer has sanitized -/

theorem sanitizedWidth_of_fixed {lineWidth : Option Float32}
    (h : (lineWidth.map fun width => sanitizeChannelLineWidth numbers (numbers.toDouble width)) = lineWidth)
    : SanitizedWidth numbers lineWidth := by
  intro width hwidth
  rw [Option.mem_def.mp hwidth] at h
  have hfixed : sanitizeChannelLineWidth numbers (numbers.toDouble width) = width :=
    Option.some.inj h
  refine ⟨?_, hfixed⟩
  by_contra hfinite
  -- what is not finite is replaced by 1.5, which is
  rw [Bool.not_eq_true] at hfinite
  have hdefault : kDefaultChannelLineWidth = width := by
    rw [← hfixed]
    exact (if_pos hfinite).symm
  rw [← hdefault, numbers.isFinite_default] at hfinite
  cases hfinite

theorem sanitizedBits_of_fixed {spec : BitDisplaySpec} (h : sanitizeBitDisplaySpec spec = spec) :
    spec.firstBit < kMaxBitDisplayCount ∧
      (spec.bitCount ≠ 0 ∧ spec.bitCount ≤ kMaxBitDisplayCount) ∧
      spec.firstBit + spec.bitCount ≤ kMaxBitDisplayCount := by
  have hfirst := congrArg BitDisplaySpec.firstBit h
  have hcount := congrArg BitDisplaySpec.bitCount h
  have hmin : ∀ a : UInt64, min a kMaxBitDisplayCount =
      if a ≤ kMaxBitDisplayCount then a else kMaxBitDisplayCount := fun _ => rfl
  have hmax : kMaxBitDisplayCount = 64 := rfl
  simp only [sanitizeBitDisplaySpec, hmin] at hfirst hcount
  generalize spec.firstBit = f at *
  generalize spec.bitCount = c at *
  grind

theorem sanitizedSpec_of_fixed (h : sanitizeChannelSpec numbers index channel = channel) :
    SanitizedSpec numbers channel := by
  obtain ⟨hfirst, hcount, hbits⟩ := sanitizedBits_of_fixed (congrArg ChannelSpec.bitDisplay h)
  exact ⟨sanitizedWidth_of_fixed (congrArg ChannelSpec.lineWidth h), hfirst, hcount, hbits⟩

/-- The channels are as `setChannelSpec` leaves them. -/
def SanitizedChannels (numbers : Numbers) (channels : List ChannelSpec) : Prop :=
  ∀ index, (h : index < channels.length) →
    sanitizeChannelSpec numbers index channels[index] = channels[index]

instance (numbers : Numbers) (channels : List ChannelSpec) :
    Decidable (SanitizedChannels numbers channels) :=
  inferInstanceAs (Decidable (∀ index, (h : index < channels.length) → _))

theorem SanitizedChannels.spec (h : SanitizedChannels numbers channels) :
    ∀ channel ∈ channels, SanitizedSpec numbers channel := by
  intro channel hchannel
  obtain ⟨index, hindex, rfl⟩ := List.mem_iff_getElem.mp hchannel
  exact sanitizedSpec_of_fixed (h index hindex)

/-- **The record of a setup gives its channels back exactly when the setup is readable**: each
first bit is at most 56, and the numbers are ones their text gives back. -/
theorem plotSetup_read_iff {numbers : Numbers} {event : RawCaptureEvent}
    (hne : event.plotSetup.channels ≠ [])
    (hsize : event.plotSetup.channels.length < 18446744073709551616)
    (hsanitized : SanitizedChannels numbers event.plotSetup.channels) :
    (∃ decoded, decodeRawCaptureEventRecordText numbers (encodePlotSetupRecord numbers event) =
        .ok decoded ∧ decoded.plotSetup.channels = event.plotSetup.channels) ↔
      ReadableSetup numbers event.plotSetup := by
  have htext : encodePlotSetupRecord numbers event = encodePlotSetupRecord numbers event ++ [] :=
    (List.append_nil _).symm
  constructor
  · rintro ⟨decoded, hdecoded, -⟩
    by_contra hreadable
    obtain ⟨error, herror⟩ :=
      decodeEventStream_setup_of_not hne hsize hsanitized.spec hreadable []
    rw [← htext] at herror
    unfold decodeRawCaptureEventRecordText at hdecoded
    rw [herror] at hdecoded
    cases hdecoded
  · intro hreadable
    have hstream := decodeEventStream_setup hne hsize hsanitized.spec hreadable []
    rw [← htext, decodeEventStream_nil, ok_bind] at hstream
    refine ⟨setupEvent event, ?_, rfl⟩
    unfold decodeRawCaptureEventRecordText
    rw [hstream]
    rfl

/-! ### A library of conversions for samples

It prints 0, 1, -1 and 1.5 as C++ does, and any other double as the number of its bits. -/

/-- The double 1.5 -/
def oneAndHalf : Float := Float.ofBits 0x3FF8000000000000

theorem toBits_ofBits_of_lt {n : UInt64} (h : n.toNat < 2 ^ 52) : (Float.ofBits n).toBits = n := by
  have hvalid : Float.Model.Format.binary64.Valid n.toBitVec := by
    constructor
    intro hexponent
    have hnat := congrArg BitVec.toNat hexponent
    simp only [Float.Model.UnpackedFloat.unpackExponent] at hnat
    simp [Nat.shiftRight_eq_div_pow] at hnat
    omega
  apply UInt64.toBitVec_inj.mp
  exact Float.Model.UnpackedFloat.pack_unpack_of_valid hvalid

/-- The doubles 0.5 and 8 -/
def oneHalf : Float := Float.ofBits 0x3FE0000000000000

def eight : Float := Float.ofBits 0x4020000000000000

def sampleToDouble (x : Float32) : Float :=
  if x = kDefaultChannelLineWidth then oneAndHalf
  else if x = kMinChannelLineWidth then oneHalf
  else if x = kMaxChannelLineWidth then eight
  else Float.ofBits x.toBits.toUInt64

def sampleToFloat (y : Float) : Float32 :=
  if y = oneAndHalf then kDefaultChannelLineWidth
  else if y = oneHalf then kMinChannelLineWidth
  else if y = eight then kMaxChannelLineWidth
  else Float32.ofBits y.toBits.toUInt32

theorem sampleToFloat_sampleToDouble (x : Float32) : sampleToFloat (sampleToDouble x) = x := by
  unfold sampleToDouble
  split_ifs with hdefault hmin hmax
  · rw [hdefault]
    exact if_pos rfl
  · rw [hmin]
    decide +kernel
  · rw [hmax]
    decide +kernel
  · have hsmall : x.toBits.toUInt64.toNat < 2 ^ 52 := by
      have := x.toBits.toNat_lt
      rw [UInt32.toNat_toUInt64]
      omega
    have hbits := toBits_ofBits_of_lt hsmall
    -- no other number of the table has so few bits
    have hne (y : Float) (hy : ¬ y.toBits.toNat < 2 ^ 52) : Float.ofBits x.toBits.toUInt64 ≠ y := by
      rintro rfl
      rw [hbits] at hy
      exact hy hsmall
    unfold sampleToFloat
    rw [if_neg (hne _ (by decide +kernel)), if_neg (hne _ (by decide +kernel)),
      if_neg (hne _ (by decide +kernel)), hbits, UInt32.toUInt32_toUInt64, Float32.ofBits_toBits]

def samplePrint (x : Float) : Text :=
  if x = oneAndHalf then text "1.5"
  else if x = one then text "1"
  else if x = minusOne then text "-1"
  else if x = zeroDouble then text "0"
  else 101 :: Decimal.render x.toBits.toNat

def sampleStod (value : Text) : Option (Float × ℕ) :=
  if value = text "1.5" then some (oneAndHalf, 3)
  else if value = text "1" then some (one, 1)
  else if value = text "-1" then some (minusOne, 2)
  else if value = text "0" then some (zeroDouble, 1)
  else (Decimal.parse value.tail).map fun n => (Float.ofBits (UInt64.ofNat n), value.length)

theorem sampleStod_samplePrint (x : Float) :
    sampleStod (samplePrint x) = some (x, (samplePrint x).length) := by
  unfold samplePrint
  split_ifs with hhalf hone hminus hzero
  · rw [hhalf]
    rfl
  · rw [hone]
    rfl
  · rw [hminus]
    rfl
  · rw [hzero]
    rfl
  · have hhead (name : Text) (h : name.head? ≠ some 101) :
        101 :: Decimal.render x.toBits.toNat ≠ name := by
      rintro rfl
      exact h rfl
    unfold sampleStod
    rw [if_neg (hhead _ (by decide)), if_neg (hhead _ (by decide)), if_neg (hhead _ (by decide)),
      if_neg (hhead _ (by decide)), List.tail_cons, Decimal.parse_render, Option.map_some,
      UInt64.ofNat_toNat, Float.ofBits_toBits]

/-- What the table prints consists of bytes of numbers. -/
theorem numberByte_samplePrint (x : Float) : ∀ byte ∈ samplePrint x, NumberByte byte := by
  have hdigit : ∀ n : Fin 256, Decimal.IsDigit (UInt8.ofNat n) → NumberByte (UInt8.ofNat n) := by
    decide +kernel
  have hnames : ∀ name ∈ ["1.5", "1", "-1", "0"], ∀ byte ∈ text name, NumberByte byte := by
    have hall : (["1.5", "1", "-1", "0"].all fun name =>
        (text name).all fun byte => decide (NumberByte byte)) = true := by
      decide +kernel
    intro name hname byte hbyte
    exact of_decide_eq_true (List.all_eq_true.mp (List.all_eq_true.mp hall name hname) byte hbyte)
  unfold samplePrint
  intro byte hbyte
  split_ifs at hbyte
  · exact hnames "1.5" (by simp) byte hbyte
  · exact hnames "1" (by simp) byte hbyte
  · exact hnames "-1" (by simp) byte hbyte
  · exact hnames "0" (by simp) byte hbyte
  · obtain rfl | hbyte := List.mem_cons.mp hbyte
    · decide
    · have hbyte' := hdigit ⟨byte.toNat, byte.toNat_lt⟩
      dsimp only at hbyte'
      rw [UInt8.ofNat_toNat] at hbyte'
      exact hbyte' (Decimal.isDigit_of_mem_render hbyte)

theorem isFinite_sampleDefault : (sampleToDouble kDefaultChannelLineWidth).isFinite = true := by
  decide +kernel

def sampleNumbers : Numbers where
  toDouble := sampleToDouble
  toFloat := sampleToFloat
  print _ := samplePrint
  stod := sampleStod
  outOfRange _ := false
  isFinite_default := isFinite_sampleDefault
  print_ne_nil _ x := by
    unfold samplePrint
    split_ifs <;> exact List.cons_ne_nil _ _
  numberByte_print _ := numberByte_samplePrint
  stod_print x _ _ := sampleStod_samplePrint x
  stod_outOfRange _ h := nomatch h
  stod_printFloat x hx :=
    ⟨_, sampleStod_samplePrint _, hx, sampleToFloat_sampleToDouble x, rfl, rfl⟩
  stod_notFinite _ x y n hx h := by
    rw [sampleStod_samplePrint] at h
    cases h
    exact hx

/-- Bits 60 to 63 of one channel -/
def highBits : RawCaptureEvent where
  type := .plotSetup
  plotSetup := {
    channels := [{ label := text "CH1", bitDisplay := { firstBit := 60, bitCount := 4 } }] }

theorem plotSetup_highBits_refused :
    SanitizedChannels sampleNumbers highBits.plotSetup.channels ∧
      ∃ error, decodeRawCaptureEventRecordText sampleNumbers
        (encodePlotSetupRecord sampleNumbers highBits) = .error (.refused error) := by
  have hsanitized : SanitizedChannels sampleNumbers highBits.plotSetup.channels := by
    decide +kernel
  have hreadable : ¬ ReadableSetup sampleNumbers highBits.plotSetup := by decide +kernel
  obtain ⟨error, herror⟩ := decodeEventStream_setup_of_not (List.cons_ne_nil _ _)
    (by decide) hsanitized.spec hreadable []
  refine ⟨hsanitized, error, ?_⟩
  unfold decodeRawCaptureEventRecordText
  rw [List.append_nil] at herror
  rw [herror]
  rfl

/-- Two channels, one with a color, a line width and bits. -/
def twoChannels : RawCaptureEvent where
  type := .plotSetup
  timestampMs := 5
  sequence := 2
  plotSetup := {
    source := text "demo"
    channels := [
      { label := text "CH1", offset := oneAndHalf },
      { label := text "a: b"
        color := some ⟨Float32.ofBits 0, Float32.ofBits 0, Float32.ofBits 0, kDefaultChannelLineWidth⟩
        lineWidth := some kDefaultChannelLineWidth
        bitDisplay := { enabled := true, firstBit := 8, bitCount := 16 } }] }

theorem plotSetup_twoChannels_read :
    ∃ decoded, decodeRawCaptureEventRecordText sampleNumbers
        (encodePlotSetupRecord sampleNumbers twoChannels) = .ok decoded ∧
      decoded.plotSetup.channels = twoChannels.plotSetup.channels :=
  (plotSetup_read_iff (List.cons_ne_nil _ _) (by decide) (by decide +kernel)).mpr
    (by decide +kernel)

end ProtoScope.Plot
