/-
What the two readers of a session package accept.

`PackageText` is the format itself: the header lines with numbers in any spelling the parser
takes, then the entries.  The decoder accepts exactly these bytes.  The reader of files takes
one step after another along the same text, but its lines are those of `std::getline`, so
the line feed at the very end may be missing.
-/
import ProtoScope.Session.SessionPackage

namespace ProtoScope.Session

open ProtoScope.Data (Text text bind_eq_ok)
open ProtoScope.Library

/-- A line with a number after its label. -/
def NumberLine (label : String) (value : UInt64) (bytes : Text) : Prop :=
  ∃ digits, lineFeed ∉ digits ∧ parseUnsigned digits = some value ∧ bytes = line label digits

/-- An entry up to its bytes. -/
def EntryHeadText (name : Text) (size : UInt64) (bytes : Text) : Prop :=
  name ≠ [] ∧ lineFeed ∉ name ∧ ∃ sizeLine, NumberLine "size: " size sizeLine ∧
    bytes = line "entry: " name ++ (sizeLine ++ [lineFeed])

/-- What follows the bytes of an entry. -/
def entryEnd : Text := [lineFeed] ++ (text "endentry" ++ [lineFeed])

def EntryText (entry : SessionPackageEntry) (bytes : Text) : Prop :=
  ∃ size head, size.toNat = entry.bytes.length ∧ EntryHeadText entry.name size head ∧
    bytes = head ++ (entry.bytes ++ entryEnd)

def EntriesText : List SessionPackageEntry → Text → Prop
  | [], bytes => bytes = []
  | entry :: entries, bytes =>
    ∃ first rest, EntryText entry first ∧ EntriesText entries rest ∧ bytes = first ++ rest

/-- The format of a session package. -/
def PackageText (package : SessionPackageData) (bytes : Text) : Prop :=
  ∃ created count : Text, ∃ entryCount : UInt64, ∃ entries : Text,
    NumberLine "created_at_ms: " package.createdAtMs created ∧
    NumberLine "entries: " entryCount count ∧
    entryCount.toNat = package.entries.length ∧
    package.entries.length ≤ kMaxSessionPackageEntries ∧
    EntriesText package.entries entries ∧
    bytes = (kMagic ++ [lineFeed]) ++ (line "version: " kVersion ++ (created ++ (count ++ entries)))

/-! ### Lines -/

variable {bytes rest : Text}

theorem consumeLine_eq_some {value : Text} :
    consumeLine bytes = some (value, rest) ↔
      lineFeed ∉ value ∧ bytes = (value ++ [lineFeed]) ++ rest := by
  unfold consumeLine
  constructor
  · intro h
    split at h
    · rename_i hcut
      cases h
      refine ⟨?_, by rw [Lines.eq_of_cut hcut, List.append_assoc, List.singleton_append]⟩
      rw [show value = (Lines.cut lineFeed bytes).1 by rw [hcut]]
      exact Lines.not_mem_cut _
    · cases h
  · intro ⟨hmem, hbytes⟩
    rw [hbytes, List.append_assoc, List.singleton_append, Lines.cut_append hmem]

/-- A label in front of a value. -/
theorem labelled_iff {label : String} (hlabel : lineFeed ∉ text label) {first value : Text} :
    (lineFeed ∉ first ∧ (text label).isPrefixOf first = true ∧
        first.drop (text label).length = value) ↔
      lineFeed ∉ value ∧ first = text label ++ value := by
  constructor
  · intro ⟨hmem, hlabelled, hvalue⟩
    obtain ⟨tail, rfl⟩ := List.isPrefixOf_iff_prefix.mp hlabelled
    rw [List.drop_left] at hvalue
    subst hvalue
    exact ⟨fun h => hmem (List.mem_append_right _ h), rfl⟩
  · rintro ⟨hmem, rfl⟩
    refine ⟨?_, List.isPrefixOf_iff_prefix.mpr (List.prefix_append _ _), List.drop_left⟩
    rw [List.mem_append, not_or]
    exact ⟨hlabel, hmem⟩

theorem consumePrefixedLine_eq_ok {label : String} (hlabel : lineFeed ∉ text label) {value : Text} :
    consumePrefixedLine label bytes = .ok (value, rest) ↔
      lineFeed ∉ value ∧ bytes = line label value ++ rest := by
  unfold consumePrefixedLine line
  constructor
  · intro h
    split at h
    · cases h
    · rename_i first after hline
      obtain ⟨hmem, hbytes⟩ := consumeLine_eq_some.mp hline
      split at h
      · rename_i hlabelled
        cases h
        obtain ⟨hvalue, hfirst⟩ := (labelled_iff hlabel).mp ⟨hmem, hlabelled, rfl⟩
        exact ⟨hvalue, by rw [hbytes, ← hfirst]⟩
      · cases h
  · intro ⟨hmem, hbytes⟩
    obtain ⟨hfirst, hlabelled, hvalue⟩ := (labelled_iff hlabel).mpr ⟨hmem, rfl⟩
    rw [consumeLine_eq_some.mpr ⟨hfirst, hbytes⟩]
    dsimp only
    rw [if_pos hlabelled, hvalue]

theorem consumeNumberLine_eq_ok {label : String} (hlabel : lineFeed ∉ text label) {error : Text}
    {value : UInt64} :
    consumeNumberLine label error bytes = .ok (value, rest) ↔
      ∃ first, NumberLine label value first ∧ bytes = first ++ rest := by
  unfold consumeNumberLine
  constructor
  · intro h
    split at h
    · cases h
    · rename_i digits after hline
      obtain ⟨hmem, hbytes⟩ := (consumePrefixedLine_eq_ok hlabel).mp hline
      split at h
      · cases h
      · rename_i parsed hparsed
        cases h
        exact ⟨_, ⟨digits, hmem, hparsed, rfl⟩, hbytes⟩
  · rintro ⟨_, ⟨digits, hmem, hparsed, rfl⟩, hbytes⟩
    rw [(consumePrefixedLine_eq_ok hlabel).mpr ⟨hmem, hbytes⟩]
    dsimp only
    rw [hparsed]

theorem consumeExactLine_eq_ok {expected error : Text} (hexpected : lineFeed ∉ expected) :
    consumeExactLine expected error bytes = .ok rest ↔ bytes = (expected ++ [lineFeed]) ++ rest := by
  unfold consumeExactLine
  constructor
  · intro h
    split at h
    · cases h
    · rename_i first after hline
      split at h
      · rename_i heq
        cases h
        rw [← heq]
        exact (consumeLine_eq_some.mp hline).2
      · cases h
  · intro hbytes
    rw [consumeLine_eq_some.mpr ⟨hexpected, hbytes⟩]
    exact if_pos rfl

/-! ### Decoding -/

theorem lineFeed_not_mem_labels : lineFeed ∉ text "entry: " ∧ lineFeed ∉ text "size: " ∧
    lineFeed ∉ text "version: " ∧ lineFeed ∉ text "created_at_ms: " ∧
      lineFeed ∉ text "entries: " ∧ lineFeed ∉ text "endentry" ∧ lineFeed ∉ kMagic ∧
        lineFeed ∉ kVersion := by
  decide +kernel

theorem labels_ne_nil : text "entry: " ≠ [] ∧ text "size: " ≠ [] ∧ text "version: " ≠ [] ∧
    text "created_at_ms: " ≠ [] ∧ text "entries: " ≠ [] ∧ text "endentry" ≠ [] := by
  decide +kernel

theorem decodeEntry_eq_ok {entry : SessionPackageEntry} :
    decodeEntry bytes = .ok (entry, rest) ↔
      ∃ first, EntryText entry first ∧ bytes = first ++ rest := by
  obtain ⟨hentry, hsizeLabel, -, -, -, hendentry, -⟩ := lineFeed_not_mem_labels
  unfold decodeEntry
  constructor
  · intro h
    obtain ⟨⟨name, afterName⟩, hname, h⟩ := bind_eq_ok.mp h
    obtain ⟨_, hne, h⟩ := bind_eq_ok.mp h
    obtain ⟨⟨size, afterSize⟩, hsize, h⟩ := bind_eq_ok.mp h
    obtain ⟨afterHead, hblank, h⟩ := bind_eq_ok.mp h
    obtain ⟨_, hlength, h⟩ := bind_eq_ok.mp h
    obtain ⟨afterBytes, hend, h⟩ := bind_eq_ok.mp h
    obtain ⟨left, hmarker, h⟩ := bind_eq_ok.mp h
    cases h
    obtain ⟨hmem, hbytes⟩ := (consumePrefixedLine_eq_ok hentry).mp hname
    obtain ⟨sizeLine, hsizeLine, hafterName⟩ := (consumeNumberLine_eq_ok hsizeLabel).mp hsize
    rw [consumeExactLine_eq_ok List.not_mem_nil] at hblank hend
    rw [consumeExactLine_eq_ok hendentry] at hmarker
    rw [refuse_eq_ok] at hne hlength
    have hpayload := List.length_take_of_le (Nat.le_of_not_lt hlength)
    refine ⟨_, ⟨size, _, hpayload.symm, ⟨hne, hmem, sizeLine, hsizeLine, rfl⟩, rfl⟩, ?_⟩
    rw [hbytes, hafterName, hblank]
    conv_lhs => rw [← List.take_append_drop size.toNat afterHead, hend, hmarker]
    simp only [entryEnd, List.append_assoc, List.nil_append]
  · rintro ⟨_, ⟨size, _, hsize, ⟨hne, hmem, sizeLine, hsizeLine, rfl⟩, rfl⟩, rfl⟩
    obtain ⟨name, bytes, size_lt⟩ := entry
    dsimp only at hsize hne hmem ⊢
    have htake : (bytes ++ (entryEnd ++ rest)).take size.toNat = bytes := List.take_left' hsize.symm
    have hdrop : (bytes ++ (entryEnd ++ rest)).drop size.toNat = entryEnd ++ rest :=
      List.drop_left' hsize.symm
    apply bind_eq_ok.mpr
    refine ⟨(name, sizeLine ++ ([lineFeed] ++ (bytes ++ (entryEnd ++ rest)))), ?_, ?_⟩
    · exact (consumePrefixedLine_eq_ok hentry).mpr ⟨hmem, by simp only [List.append_assoc]⟩
    apply bind_eq_ok.mpr
    refine ⟨(), refuse_eq_ok.mpr hne, bind_eq_ok.mpr ⟨(size, [lineFeed] ++ (bytes ++ (entryEnd ++ rest))), ?_, ?_⟩⟩
    · exact (consumeNumberLine_eq_ok hsizeLabel).mpr ⟨sizeLine, hsizeLine, rfl⟩
    apply bind_eq_ok.mpr
    refine ⟨bytes ++ (entryEnd ++ rest), (consumeExactLine_eq_ok List.not_mem_nil).mpr rfl, ?_⟩
    apply bind_eq_ok.mpr
    refine ⟨(), refuse_eq_ok.mpr ?_, ?_⟩
    · rw [hsize, List.length_append]
      omega
    apply bind_eq_ok.mpr
    refine ⟨text "endentry" ++ [lineFeed] ++ rest, ?_, ?_⟩
    · rw [hdrop]
      exact (consumeExactLine_eq_ok List.not_mem_nil).mpr rfl
    apply bind_eq_ok.mpr
    refine ⟨rest, (consumeExactLine_eq_ok hendentry).mpr rfl, ?_⟩
    apply Data.pure_eq_ok.mpr
    exact Prod.ext (SessionPackageEntry.ext rfl htake) rfl

theorem decodeEntries_eq_ok {count : ℕ} {entries : List SessionPackageEntry} :
    decodeEntries count bytes = .ok (entries, rest) ↔
      entries.length = count ∧ ∃ first, EntriesText entries first ∧ bytes = first ++ rest := by
  induction count generalizing entries bytes with
  | zero =>
    constructor
    · intro h
      cases h
      exact ⟨rfl, [], rfl, rfl⟩
    · intro ⟨hlength, first, hfirst, hbytes⟩
      obtain rfl := List.eq_nil_of_length_eq_zero hlength
      obtain rfl : first = [] := hfirst
      rw [hbytes]
      rfl
  | succ count ih =>
    constructor
    · intro h
      obtain ⟨⟨entry, afterEntry⟩, hentry, h⟩ := bind_eq_ok.mp h
      obtain ⟨⟨others, left⟩, hothers, h⟩ := bind_eq_ok.mp h
      cases h
      obtain ⟨first, hfirst, hbytes⟩ := decodeEntry_eq_ok.mp hentry
      obtain ⟨hlength, second, hsecond, hafter⟩ := ih.mp hothers
      refine ⟨congrArg (· + 1) hlength, first ++ second, ⟨first, second, hfirst, hsecond, rfl⟩, ?_⟩
      rw [hbytes, List.append_assoc]
      exact congrArg _ hafter
    · intro ⟨hlength, whole, hwhole, hbytes⟩
      match entries with
      | entry :: others =>
        obtain ⟨first, second, hfirst, hsecond, rfl⟩ := hwhole
        rw [List.append_assoc] at hbytes
        apply bind_eq_ok.mpr
        refine ⟨(entry, second ++ rest), decodeEntry_eq_ok.mpr ⟨first, hfirst, hbytes⟩, ?_⟩
        apply bind_eq_ok.mpr
        exact ⟨(others, rest), ih.mpr ⟨Nat.succ.inj hlength, second, hsecond, rfl⟩, rfl⟩

theorem EntryText.length_pos {entry : SessionPackageEntry} (h : EntryText entry bytes) :
    0 < bytes.length := by
  obtain ⟨size, head, -, -, rfl⟩ := h
  simp [entryEnd]

/-- There are no more entries than bytes. -/
theorem EntriesText.length_le {entries : List SessionPackageEntry} (h : EntriesText entries bytes) :
    entries.length ≤ bytes.length := by
  induction entries generalizing bytes with
  | nil => exact Nat.zero_le _
  | cons entry entries ih =>
    obtain ⟨first, rest, hfirst, hrest, rfl⟩ := h
    have hpos := hfirst.length_pos
    have hle := ih hrest
    rw [List.length_cons, List.length_append]
    omega

/-- **The decoder accepts the format and nothing else.** -/
theorem decodeSessionPackage_eq_ok {package : SessionPackageData} :
    decodeSessionPackage bytes = .ok package ↔ PackageText package bytes := by
  obtain ⟨-, -, hversion, hcreated, hentries, -, hmagic, hkVersion⟩ := lineFeed_not_mem_labels
  unfold decodeSessionPackage
  constructor
  · intro h
    obtain ⟨afterMagic, hbytes, h⟩ := bind_eq_ok.mp h
    obtain ⟨⟨version, afterVersion⟩, hline, h⟩ := bind_eq_ok.mp h
    obtain ⟨_, hsame, h⟩ := bind_eq_ok.mp h
    obtain ⟨⟨createdAtMs, afterCreated⟩, hcreatedLine, h⟩ := bind_eq_ok.mp h
    obtain ⟨⟨entryCount, afterCount⟩, hcountLine, h⟩ := bind_eq_ok.mp h
    obtain ⟨_, hlimit, h⟩ := bind_eq_ok.mp h
    obtain ⟨⟨entries, left⟩, hread, h⟩ := bind_eq_ok.mp h
    obtain ⟨_, hleft, h⟩ := bind_eq_ok.mp h
    cases h
    rw [consumeExactLine_eq_ok hmagic] at hbytes
    obtain ⟨-, hafterMagic⟩ := (consumePrefixedLine_eq_ok hversion).mp hline
    rw [refuse_eq_ok, not_not] at hsame hleft
    rw [refuse_eq_ok, not_or] at hlimit
    obtain ⟨created, hcreatedText, hafterVersion⟩ := (consumeNumberLine_eq_ok hcreated).mp hcreatedLine
    obtain ⟨count, hcountText, hafterCreated⟩ := (consumeNumberLine_eq_ok hentries).mp hcountLine
    obtain ⟨hlength, entriesText, hentriesText, hafterCount⟩ := decodeEntries_eq_ok.mp hread
    rw [hsame] at hafterMagic
    rw [hleft, List.append_nil] at hafterCount
    refine ⟨created, count, entryCount, entriesText, hcreatedText, hcountText, hlength.symm,
      ?_, hentriesText, ?_⟩
    · rw [hlength]
      exact Nat.le_of_not_lt hlimit.1
    · rw [hbytes, hafterMagic, hafterVersion, hafterCreated, hafterCount]
  · intro ⟨created, count, entryCount, entries, hcreatedText, hcountText, hlength, hlimit,
      hentriesText, hbytes⟩
    have hle := hentriesText.length_le
    apply bind_eq_ok.mpr
    refine ⟨_, (consumeExactLine_eq_ok hmagic).mpr hbytes, ?_⟩
    apply bind_eq_ok.mpr
    refine ⟨(kVersion, _), (consumePrefixedLine_eq_ok hversion).mpr ⟨hkVersion, rfl⟩, ?_⟩
    apply bind_eq_ok.mpr
    refine ⟨(), refuse_eq_ok.mpr (not_not.mpr rfl), bind_eq_ok.mpr
      ⟨(package.createdAtMs, _), (consumeNumberLine_eq_ok hcreated).mpr ⟨_, hcreatedText, rfl⟩, ?_⟩⟩
    apply bind_eq_ok.mpr
    refine ⟨(entryCount, _), (consumeNumberLine_eq_ok hentries).mpr ⟨_, hcountText, rfl⟩, ?_⟩
    apply bind_eq_ok.mpr
    refine ⟨(), refuse_eq_ok.mpr ?_, ?_⟩
    · rw [hlength, hbytes]
      simp only [List.length_append]
      omega
    apply bind_eq_ok.mpr
    refine ⟨(package.entries, []), ?_, ?_⟩
    · exact decodeEntries_eq_ok.mpr ⟨hlength.symm, entries, hentriesText, (List.append_nil _).symm⟩
    apply bind_eq_ok.mpr
    exact ⟨(), refuse_eq_ok.mpr (not_not.mpr rfl), rfl⟩

/-! ### Written packages -/

theorem lineFeed_not_mem_render (n : ℕ) : lineFeed ∉ Decimal.render n := by
  intro h
  have := Decimal.isDigit_of_mem_render h
  revert this
  decide

theorem parseUnsigned_render {n : ℕ} (h : n < 2 ^ 64) :
    parseUnsigned (Decimal.render n) = some (UInt64.ofNat n) := by
  unfold parseUnsigned
  rw [Decimal.parse_render]
  exact if_pos h

theorem numberLine_render (label : String) {n : ℕ} (h : n < 2 ^ 64) :
    NumberLine label (UInt64.ofNat n) (line label (Decimal.render n)) :=
  ⟨_, lineFeed_not_mem_render n, parseUnsigned_render h, rfl⟩

theorem entryText_encodeEntry {entry : SessionPackageEntry} (hne : entry.name ≠ [])
    (hmem : lineFeed ∉ entry.name) : EntryText entry (encodeEntry entry) := by
  refine ⟨UInt64.ofNat entry.bytes.length, _, UInt64.toNat_ofNat_of_lt' entry.size_lt,
    ⟨hne, hmem, _, numberLine_render _ entry.size_lt, rfl⟩, ?_⟩
  have hend : line "\nendentry" [] = entryEnd := by decide +kernel
  simp only [encodeEntry, hend, List.append_assoc]

theorem entriesText_encode {entries : List SessionPackageEntry}
    (h : ∀ entry ∈ entries, entry.name ≠ [] ∧ lineFeed ∉ entry.name) :
    EntriesText entries (entries.flatMap encodeEntry) := by
  induction entries with
  | nil => rfl
  | cons entry entries ih =>
    obtain ⟨hne, hmem⟩ := h entry List.mem_cons_self
    have hrest := ih fun other hother => h other (List.mem_cons_of_mem _ hother)
    exact ⟨_, _, entryText_encodeEntry hne hmem, hrest, List.flatMap_cons⟩

theorem packageText_encode {package : SessionPackageData}
    (hcount : package.entries.length ≤ kMaxSessionPackageEntries)
    (hnames : ∀ entry ∈ package.entries, entry.name ≠ [] ∧ lineFeed ∉ entry.name) :
    PackageText package (encodeSessionPackage package) := by
  have hlt : package.entries.length < 2 ^ 64 := hcount.trans_lt (by decide)
  have hcreated := numberLine_render "created_at_ms: " package.createdAtMs.toNat_lt
  rw [UInt64.ofNat_toNat] at hcreated
  refine ⟨_, _, UInt64.ofNat package.entries.length, _, hcreated, numberLine_render _ hlt,
    UInt64.toNat_ofNat_of_lt' hlt, hcount, entriesText_encode hnames, ?_⟩
  simp only [encodeSessionPackage, encodeHeader, List.append_assoc]

/-- The slices are the bytes. -/
theorem writeSlices_eq (bytes : List UInt8) : writeSlices bytes = bytes := by
  induction hlength : bytes.length using Nat.strong_induction_on generalizing bytes with
  | _ length ih =>
    rw [writeSlices]
    split
    · rename_i hnil
      exact hnil.symm
    · rename_i hne
      have hpos := List.length_pos_of_ne_nil hne
      rw [ih (bytes.drop sliceSize).length (by rw [List.length_drop, sliceSize]; omega) _ rfl,
        List.take_append_drop]

theorem writeEntry_eq (entry : SessionPackageEntry) : writeEntry entry = encodeEntry entry := by
  have hend : line "\nendentry" [] = text "\nendentry\n" := by decide +kernel
  rw [writeEntry, encodeEntry, writeSlices_eq, hend]
  simp only [line, List.append_assoc, List.cons_append, List.nil_append]

theorem writeSessionPackage_eq (package : SessionPackageData) :
    writeSessionPackage package = encodeSessionPackage package := by
  have hentries : package.entries.flatMap writeEntry = package.entries.flatMap encodeEntry :=
    congrArg (package.entries.flatMap ·) (funext writeEntry_eq)
  simp only [writeSessionPackage, encodeSessionPackage, encodeHeader, hentries, line,
    List.append_assoc]

/-- **A package is decoded as it was encoded**, in memory or to a file. -/
theorem decode_encodeSessionPackage (package : SessionPackageData)
    (hcount : package.entries.length ≤ kMaxSessionPackageEntries)
    (hnames : ∀ entry ∈ package.entries, entry.name ≠ [] ∧ lineFeed ∉ entry.name) :
    decodeSessionPackage (encodeSessionPackage package) = .ok package ∧
      decodeSessionPackage (writeSessionPackage package) = .ok package := by
  have htext := packageText_encode hcount hnames
  rw [writeSessionPackage_eq]
  exact ⟨decodeSessionPackage_eq_ok.mpr htext, decodeSessionPackage_eq_ok.mpr htext⟩

/-- An entry whose bytes spell the end of an entry, and one without bytes. -/
def markerPackage : SessionPackageData where
  createdAtMs := 7
  entries := [{ name := text "entry: a", bytes := [10, 101, 110, 100, 101, 110, 116, 114, 121, 10] },
    { name := text "b" }]

theorem decode_encode_markerPackage :
    decodeSessionPackage (encodeSessionPackage markerPackage) = .ok markerPackage ∧
      decodeSessionPackage (writeSessionPackage markerPackage) = .ok markerPackage :=
  decode_encodeSessionPackage markerPackage (by decide) (by decide +kernel)

end ProtoScope.Session
