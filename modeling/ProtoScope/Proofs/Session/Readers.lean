/-
The two readers of a session package side by side.

Each read of the file reader is one piece of the format taken from the stream, so a file is
accepted when its bytes are a package, or become one with a line feed after them.  The
second kind is where the readers disagree: the decoder wants the last line feed.
-/
import ProtoScope.Proofs.Session.PackageText

namespace ProtoScope.Session

open ProtoScope.Data (Text text bind_eq_ok)
open ProtoScope.Library InputStream

/-! ### Lines of the file -/

variable {after s : InputStream} {bytes : Text}

theorem field_eq_ok {label : String} (hlabel : lineFeed ∉ text label) (hne : text label ≠ [])
    {value : Text} :
    field label s = .ok (value, after) ↔
      lineFeed ∉ value ∧ s.Consumes (line label value) after := by
  unfold field
  constructor
  · intro h
    split at h
    · cases h
    · rename_i first next hline
      obtain ⟨hmem, hconsumes, -⟩ := getline_eq_some.mp hline
      split at h
      · rename_i hlabelled
        cases h
        obtain ⟨hvalue, hfirst⟩ := (labelled_iff hlabel).mp ⟨hmem, hlabelled, rfl⟩
        rw [hfirst] at hconsumes
        exact ⟨hvalue, hconsumes⟩
      · cases h
  · rintro ⟨hmem, hconsumes⟩
    obtain ⟨hfirst, hlabelled, hvalue⟩ := (labelled_iff hlabel).mpr ⟨hmem, rfl⟩
    have hline : s.getline = some (text label ++ value, after) := by
      refine getline_eq_some.mpr ⟨hfirst, hconsumes, fun _ hnil => ?_⟩
      exact hne (List.append_eq_nil_iff.mp hnil).1
    rw [hline]
    dsimp only
    rw [if_pos hlabelled, hvalue]

theorem fieldOr_eq_ok {label : String} {error : Text} {result : Text × InputStream} :
    fieldOr label error s = .ok result ↔ field label s = .ok result := by
  unfold fieldOr
  constructor
  · intro h
    split at h
    · cases h
    · rename_i hfield
      rw [hfield, h]
  · intro h
    rw [h]

theorem numberOr_eq_ok {label : String} (hlabel : lineFeed ∉ text label) (hne : text label ≠ [])
    {error : Text} {value : UInt64} :
    numberOr label error s = .ok (value, after) ↔
      ∃ taken, NumberLine label value taken ∧ s.Consumes taken after := by
  unfold numberOr
  constructor
  · intro h
    split at h
    · cases h
    · rename_i digits next hfield
      obtain ⟨hmem, hconsumes⟩ := (field_eq_ok hlabel hne).mp hfield
      split at h
      · cases h
      · rename_i parsed hparsed
        cases h
        exact ⟨_, ⟨digits, hmem, hparsed, rfl⟩, hconsumes⟩
  · rintro ⟨_, ⟨digits, hmem, hparsed, rfl⟩, hconsumes⟩
    rw [(field_eq_ok hlabel hne).mpr ⟨hmem, hconsumes⟩]
    dsimp only
    rw [hparsed]

theorem lineOr_eq_ok {expected error : Text} (hexpected : lineFeed ∉ expected) :
    lineOr expected error s = .ok after ↔
      s.Consumes (expected ++ [lineFeed]) after ∧ (after.eof = true → expected ≠ []) := by
  unfold lineOr
  constructor
  · intro h
    split at h
    · cases h
    · rename_i first next hline
      obtain ⟨-, hconsumes, hlast⟩ := getline_eq_some.mp hline
      split at h
      · rename_i heq
        cases h
        rw [← heq]
        exact ⟨hconsumes, hlast⟩
      · cases h
  · rintro ⟨hconsumes, hlast⟩
    rw [getline_eq_some.mpr ⟨hexpected, hconsumes, hlast⟩]
    exact if_pos rfl

/-! ### Entries of the file -/

/-- The slices together are all that was asked for. -/
theorem readSlices_eq_ok {size : ℕ} {taken : List UInt8} (heof : s.eof = false) :
    readSlices size s = .ok (taken, after) ↔
      taken.length = size ∧ after.eof = false ∧ s.Takes taken after := by
  induction size using Nat.strong_induction_on generalizing s taken with
  | _ size ih =>
    rw [readSlices]
    by_cases hzero : size = 0
    · rw [if_pos hzero, hzero]
      constructor
      · intro h
        cases h
        exact ⟨rfl, heof, .inl ⟨rfl, rfl⟩⟩
      · rintro ⟨hlength, _, htakes⟩
        obtain rfl := List.eq_nil_of_length_eq_zero hlength
        obtain ⟨-, rfl⟩ | ⟨hne, -⟩ := htakes
        · rfl
        · exact absurd rfl hne
    rw [if_neg hzero]
    have hslice : 0 < min sliceSize size ∧ min sliceSize size ≤ size := by
      unfold sliceSize
      omega
    have hlt : size - min sliceSize size < size := by omega
    constructor
    · intro h
      split at h
      · cases h
      · rename_i slice middle hread
        obtain ⟨hlength, hmiddle, hconsumes⟩ := read_eq_some.mp hread
        obtain ⟨⟨slices, last⟩, hslices, h⟩ := bind_eq_ok.mp h
        cases h
        obtain ⟨hrest, hafter, htakes⟩ := (ih _ hlt hmiddle).mp hslices
        refine ⟨?_, hafter, .inr ⟨?_, consumes_append.mpr ⟨middle, hconsumes, htakes⟩⟩⟩
        · rw [List.length_append]
          omega
        · exact List.ne_nil_of_length_pos (by rw [List.length_append]; omega)
    · rintro ⟨hlength, hafter, htakes⟩
      obtain ⟨hnil, -⟩ | ⟨-, hconsumes⟩ := htakes
      · rw [hnil] at hlength
        exact absurd hlength.symm hzero
      rw [← List.take_append_drop (min sliceSize size) taken] at hconsumes
      obtain ⟨middle, hfirst, hrest⟩ := consumes_append.mp hconsumes
      have hmiddle : middle.eof = false := by
        obtain ⟨-, hsame⟩ | ⟨-, hsecond⟩ := hrest
        · rw [← hsame]
          exact hafter
        · exact hsecond.1
      have hread : s.read (min sliceSize size) = some (taken.take (min sliceSize size), middle) := by
        refine read_eq_some.mpr ⟨?_, hmiddle, hfirst⟩
        exact List.length_take_of_le (by omega)
      rw [hread]
      apply bind_eq_ok.mpr
      refine ⟨(taken.drop (min sliceSize size), after), (ih _ hlt hmiddle).mpr ⟨?_, hafter, hrest⟩, ?_⟩
      · rw [List.length_drop, hlength]
      · exact congrArg Except.ok (Prod.ext (List.take_append_drop _ _) rfl)

theorem readEntryHead_eq_ok {name : Text} {size : UInt64} :
    readEntryHead s = .ok (name, size, after) ↔
      after.eof = false ∧ size.toNat ≤ after.rest.length ∧
        ∃ taken, EntryHeadText name size taken ∧ s.Consumes taken after := by
  obtain ⟨hentry, hsizeLabel, -⟩ := lineFeed_not_mem_labels
  obtain ⟨hentryNe, hsizeNe, -⟩ := labels_ne_nil
  unfold readEntryHead
  constructor
  · intro h
    obtain ⟨⟨name, afterName⟩, hname, h⟩ := bind_eq_ok.mp h
    obtain ⟨_, hne, h⟩ := bind_eq_ok.mp h
    obtain ⟨⟨size, afterSize⟩, hsize, h⟩ := bind_eq_ok.mp h
    obtain ⟨afterHead, hblank, h⟩ := bind_eq_ok.mp h
    rw [fieldOr_eq_ok, field_eq_ok hentry hentryNe] at hname
    rw [refuse_eq_ok] at hne
    obtain ⟨sizeLine, hsizeLine, hsizeTaken⟩ := (numberOr_eq_ok hsizeLabel hsizeNe).mp hsize
    obtain ⟨hblankTaken, hlast⟩ := (lineOr_eq_ok List.not_mem_nil).mp hblank
    split at h
    · cases h
    · rename_i position htell
      obtain ⟨_, hroom, h⟩ := bind_eq_ok.mp h
      cases h
      have heof : after.eof = false := by
        by_contra htrue
        rw [Bool.not_eq_false] at htrue
        exact hlast htrue rfl
      unfold tellg at htell
      rw [if_neg (by rw [heof]; exact Bool.false_ne_true), Option.some.injEq] at htell
      rw [refuse_eq_ok, ← htell] at hroom
      refine ⟨heof, ?_, _, ⟨hne, hname.1, sizeLine, hsizeLine, rfl⟩, ?_⟩
      · rw [rest, List.length_drop]
        omega
      · exact hname.2.append (hsizeTaken.append hblankTaken)
  · rintro ⟨heof, hroom, _, ⟨hne, hmem, sizeLine, hsizeLine, rfl⟩, hconsumes⟩
    obtain ⟨afterName, hnameEof, hname, hrest⟩ := hconsumes.split (by simp)
    obtain ⟨afterSize, hsizeEof, hsize, hblank⟩ := hrest.split (by simp)
    have hposition := hblank.position_le (by simp)
    apply bind_eq_ok.mpr
    refine ⟨(name, afterName), ?_, bind_eq_ok.mpr ⟨(), refuse_eq_ok.mpr hne, ?_⟩⟩
    · exact fieldOr_eq_ok.mpr ((field_eq_ok hentry hentryNe).mpr ⟨hmem, hname⟩)
    apply bind_eq_ok.mpr
    refine ⟨(size, afterSize), ?_, bind_eq_ok.mpr ⟨after, ?_, ?_⟩⟩
    · exact (numberOr_eq_ok hsizeLabel hsizeNe).mpr ⟨sizeLine, hsizeLine, hsize⟩
    · refine (lineOr_eq_ok List.not_mem_nil).mpr ⟨hblank, fun htrue => ?_⟩
      rw [heof] at htrue
      cases htrue
    · have htell : after.tellg = some after.position :=
        if_neg (by rw [heof]; exact Bool.false_ne_true)
      rw [htell]
      apply bind_eq_ok.mpr
      refine ⟨(), refuse_eq_ok.mpr ?_, rfl⟩
      rw [rest, List.length_drop] at hroom
      omega

theorem readEntryEnd_eq_ok : readEntryEnd s = .ok after ↔ s.Consumes entryEnd after := by
  obtain ⟨-, -, -, -, -, hendentry, -⟩ := lineFeed_not_mem_labels
  obtain ⟨-, -, -, -, -, hendentryNe⟩ := labels_ne_nil
  unfold readEntryEnd entryEnd
  constructor
  · intro h
    obtain ⟨afterBlank, hblank, h⟩ := bind_eq_ok.mp h
    exact ((lineOr_eq_ok List.not_mem_nil).mp hblank).1.append ((lineOr_eq_ok hendentry).mp h).1
  · intro h
    obtain ⟨afterBlank, heof, hblank, hmarker⟩ := h.split (by simp)
    apply bind_eq_ok.mpr
    refine ⟨afterBlank, (lineOr_eq_ok List.not_mem_nil).mpr ⟨hblank, fun htrue => ?_⟩, ?_⟩
    · rw [heof] at htrue
      cases htrue
    · exact (lineOr_eq_ok hendentry).mpr ⟨hmarker, fun _ => hendentryNe⟩

theorem readEntryBytes_none {name : Text} {size : UInt64} :
    readEntryBytes name size none s = readSlices size.toNat s >>= fun read =>
      .ok (read.1, none, read.2) :=
  rfl

theorem readEntry_eq_ok {entry : SessionPackageEntry} {left : Option SessionRawCaptureSlice} :
    readEntry none s = .ok (entry, left, after) ↔
      left = none ∧ ∃ taken, EntryText entry taken ∧ s.Consumes taken after := by
  unfold readEntry
  constructor
  · intro h
    split at h
    · cases h
    · rename_i name size afterHead hhead
      split at h
      · cases h
      · rename_i bytes slice afterBytes hbytes
        obtain ⟨last, hlast, h⟩ := bind_eq_ok.mp h
        cases h
        obtain ⟨heof, -, head, hheadText, hheadTaken⟩ := readEntryHead_eq_ok.mp hhead
        rw [readEntryBytes_none] at hbytes
        obtain ⟨⟨taken, next⟩, hslices, hbytes⟩ := bind_eq_ok.mp hbytes
        cases hbytes
        obtain ⟨hlength, -, htakes⟩ := (readSlices_eq_ok heof).mp hslices
        have hend := readEntryEnd_eq_ok.mp hlast
        refine ⟨rfl, _, ⟨size, head, hlength.symm, hheadText, rfl⟩, hheadTaken.append ?_⟩
        obtain ⟨hnil, rfl⟩ | ⟨-, hconsumes⟩ := htakes
        · dsimp only at hnil ⊢
          rw [hnil, List.nil_append]
          exact hend
        · exact hconsumes.append hend
  · rintro ⟨rfl, _, ⟨size, head, hsize, hheadText, rfl⟩, hconsumes⟩
    obtain ⟨name, bytes, size_lt⟩ := entry
    dsimp only at hsize hheadText hconsumes
    have hne : bytes ++ entryEnd ≠ [] := by simp [entryEnd]
    obtain ⟨afterHead, heof, hhead, hrest⟩ := hconsumes.split hne
    have hslices : ∃ afterBytes, readSlices size.toNat afterHead = .ok (bytes, afterBytes) ∧
        afterBytes.Consumes entryEnd after := by
      by_cases hnil : bytes = []
      · rw [hnil, List.nil_append] at hrest
        refine ⟨afterHead, (readSlices_eq_ok heof).mpr ⟨hsize.symm, heof, .inl ⟨hnil, rfl⟩⟩, hrest⟩
      · obtain ⟨afterBytes, heof', htaken, hend⟩ := hrest.split (by simp [entryEnd])
        exact ⟨afterBytes, (readSlices_eq_ok heof).mpr ⟨hsize.symm, heof', .inr ⟨hnil, htaken⟩⟩, hend⟩
    obtain ⟨afterBytes, hslices, hend⟩ := hslices
    have hroom : size.toNat ≤ afterHead.rest.length := by
      obtain ⟨-, -, ⟨-, -, htext⟩ | ⟨-, -, htext⟩⟩ := hrest
      · rw [htext, hsize]
        simp only [List.length_append]
        omega
      · have hlength := congrArg List.length htext
        simp only [entryEnd, List.length_append, List.length_singleton] at hlength
        omega
    have hheadRead := readEntryHead_eq_ok.mpr ⟨heof, hroom, head, hheadText, hhead⟩
    have hbytes : readEntryBytes name size none afterHead = .ok (bytes, none, afterBytes) := by
      rw [readEntryBytes_none, hslices]
      rfl
    rw [hheadRead]
    dsimp only
    split
    · rename_i herror
      rw [hbytes] at herror
      cases herror
    · rename_i read slice last hread
      rw [hbytes] at hread
      cases hread
      exact bind_eq_ok.mpr ⟨after, readEntryEnd_eq_ok.mpr hend, rfl⟩

theorem EntryText.ne_nil {entry : SessionPackageEntry} (h : EntryText entry bytes) : bytes ≠ [] :=
  List.ne_nil_of_length_pos h.length_pos

theorem readEntries_eq_ok {count : ℕ} {entries : List SessionPackageEntry}
    {left : Option SessionRawCaptureSlice} :
    readEntries count none s = .ok (entries, left, after) ↔
      entries.length = count ∧ left = none ∧
        ∃ taken, EntriesText entries taken ∧ s.Takes taken after := by
  induction count generalizing s entries with
  | zero =>
    constructor
    · intro h
      cases h
      exact ⟨rfl, rfl, [], rfl, .inl ⟨rfl, rfl⟩⟩
    · rintro ⟨hlength, rfl, taken, htaken, htakes⟩
      obtain rfl := List.eq_nil_of_length_eq_zero hlength
      obtain ⟨-, rfl⟩ | ⟨hne, -⟩ := htakes
      · rfl
      · exact absurd htaken hne
  | succ count ih =>
    constructor
    · intro h
      obtain ⟨⟨entry, slice, next⟩, hentry, h⟩ := bind_eq_ok.mp h
      obtain ⟨rfl, first, hfirst, hconsumes⟩ := readEntry_eq_ok.mp hentry
      obtain ⟨⟨others, slice, last⟩, hothers, h⟩ := bind_eq_ok.mp h
      cases h
      obtain ⟨hlength, hleft, rest, hrest, htakes⟩ := ih.mp hothers
      refine ⟨congrArg (· + 1) hlength, hleft, first ++ rest, ⟨first, rest, hfirst, hrest, rfl⟩, ?_⟩
      refine .inr ⟨?_, consumes_append.mpr ⟨next, hconsumes, htakes⟩⟩
      exact List.append_ne_nil_of_left_ne_nil hfirst.ne_nil _
    · rintro ⟨hlength, rfl, _, htext, htakes⟩
      match entries with
      | entry :: others =>
        obtain ⟨first, rest, hfirst, hrest, rfl⟩ := htext
        obtain ⟨hnil, -⟩ | ⟨-, hconsumes⟩ := htakes
        · exact absurd (List.append_eq_nil_iff.mp hnil).1 hfirst.ne_nil
        · obtain ⟨next, hentry, hothers⟩ := consumes_append.mp hconsumes
          apply bind_eq_ok.mpr
          refine ⟨(entry, none, next), readEntry_eq_ok.mpr ⟨rfl, first, hfirst, hentry⟩, ?_⟩
          apply bind_eq_ok.mpr
          exact ⟨(others, none, after), ih.mpr ⟨Nat.succ.inj hlength, rfl, rest, hrest, hothers⟩, rfl⟩

theorem NumberLine.ne_nil {label : String} {value : UInt64} (h : NumberLine label value bytes) :
    bytes ≠ [] := by
  obtain ⟨digits, -, -, rfl⟩ := h
  simp [line]

/-- **The file reader accepts the format, with or without the last line feed.** -/
theorem readSessionPackage_eq_ok {package : SessionPackageData}
    {left : Option SessionRawCaptureSlice} :
    readSessionPackage bytes none = .ok (package, left) ↔
      left = none ∧ (PackageText package bytes ∨ PackageText package (bytes ++ [lineFeed])) := by
  obtain ⟨-, -, hversion, hcreated, hentries, -, hmagic, hkVersion⟩ := lineFeed_not_mem_labels
  obtain ⟨-, -, hversionNe, hcreatedNe, hentriesNe, -⟩ := labels_ne_nil
  unfold readSessionPackage
  constructor
  · intro h
    obtain ⟨afterMagic, hmagicLine, h⟩ := bind_eq_ok.mp h
    obtain ⟨⟨version, afterVersion⟩, hline, h⟩ := bind_eq_ok.mp h
    obtain ⟨_, hsame, h⟩ := bind_eq_ok.mp h
    obtain ⟨⟨createdAtMs, afterCreated⟩, hcreatedLine, h⟩ := bind_eq_ok.mp h
    obtain ⟨⟨entryCount, afterCount⟩, hcountLine, h⟩ := bind_eq_ok.mp h
    obtain ⟨_, hlimit, h⟩ := bind_eq_ok.mp h
    obtain ⟨⟨entries, slice, last⟩, hread, h⟩ := bind_eq_ok.mp h
    obtain ⟨_, hend, h⟩ := bind_eq_ok.mp h
    cases h
    obtain ⟨hmagicTaken, -⟩ := (lineOr_eq_ok hmagic).mp hmagicLine
    rw [fieldOr_eq_ok, field_eq_ok hversion hversionNe] at hline
    rw [refuse_eq_ok] at hsame hlimit hend
    rw [not_not] at hsame
    rw [Bool.not_eq_false] at hend
    obtain ⟨created, hcreatedText, hcreatedTaken⟩ :=
      (numberOr_eq_ok hcreated hcreatedNe).mp hcreatedLine
    obtain ⟨count, hcountText, hcountTaken⟩ :=
      (numberOr_eq_ok hentries hentriesNe).mp hcountLine
    obtain ⟨hlength, rfl, taken, htaken, htakes⟩ := readEntries_eq_ok.mp hread
    rw [hsame] at hline
    have hall := hmagicTaken.append (hline.2.append (hcreatedTaken.append
      (consumes_append.mpr ⟨afterCount, hcountTaken, htakes⟩)))
    have hpackage : PackageText { createdAtMs, entries } _ :=
      ⟨created, count, entryCount, taken, hcreatedText, hcountText, hlength.symm,
        by rw [hlength]; exact Nat.le_of_not_lt hlimit, htaken, rfl⟩
    refine ⟨rfl, ?_⟩
    obtain heq | heq := consumes_atEnd.mp ⟨last, hall, hend⟩
    · left
      rw [← heq]
      exact hpackage
    · right
      show PackageText _ (bytes ++ [InputStream.lineFeed])
      rw [← heq]
      exact hpackage
  · rintro ⟨rfl, hpackage⟩
    obtain ⟨whole, hwhole, created, count, entryCount, entries, hcreatedText, hcountText, hlength,
        hlimit, hentriesText, rfl⟩ : ∃ whole, (whole = bytes ∨ whole = bytes ++ [lineFeed]) ∧
          PackageText package whole := by
      obtain h | h := hpackage
      · exact ⟨bytes, .inl rfl, h⟩
      · exact ⟨_, .inr rfl, h⟩
    obtain ⟨last, hconsumes, hend⟩ := consumes_atEnd.mpr hwhole
    obtain ⟨afterMagic, hmagicEof, hmagicTaken, hconsumes⟩ := hconsumes.split (by simp [line])
    obtain ⟨afterVersion, -, hversionTaken, hconsumes⟩ := hconsumes.split
      (List.append_ne_nil_of_left_ne_nil hcreatedText.ne_nil _)
    obtain ⟨afterCreated, -, hcreatedTaken, hconsumes⟩ := hconsumes.split
      (List.append_ne_nil_of_left_ne_nil hcountText.ne_nil _)
    obtain ⟨afterCount, hcountTaken, htakes⟩ := consumes_append.mp hconsumes
    apply bind_eq_ok.mpr
    refine ⟨afterMagic, (lineOr_eq_ok hmagic).mpr ⟨hmagicTaken, fun htrue => ?_⟩, ?_⟩
    · rw [hmagicEof] at htrue
      cases htrue
    apply bind_eq_ok.mpr
    refine ⟨(kVersion, afterVersion), fieldOr_eq_ok.mpr
      ((field_eq_ok hversion hversionNe).mpr ⟨hkVersion, hversionTaken⟩), ?_⟩
    apply bind_eq_ok.mpr
    refine ⟨(), refuse_eq_ok.mpr (not_not.mpr rfl), bind_eq_ok.mpr
      ⟨(package.createdAtMs, afterCreated), ?_, ?_⟩⟩
    · exact (numberOr_eq_ok hcreated hcreatedNe).mpr ⟨created, hcreatedText, hcreatedTaken⟩
    apply bind_eq_ok.mpr
    refine ⟨(entryCount, afterCount), ?_, ?_⟩
    · exact (numberOr_eq_ok hentries hentriesNe).mpr ⟨count, hcountText, hcountTaken⟩
    apply bind_eq_ok.mpr
    refine ⟨(), refuse_eq_ok.mpr ?_, ?_⟩
    · rw [hlength]
      exact Nat.not_lt_of_le hlimit
    apply bind_eq_ok.mpr
    refine ⟨(package.entries, none, last), ?_, ?_⟩
    · exact readEntries_eq_ok.mpr ⟨hlength.symm, rfl, entries, hentriesText, htakes⟩
    apply bind_eq_ok.mpr
    refine ⟨(), refuse_eq_ok.mpr ?_, rfl⟩
    rw [hend]
    exact Bool.noConfusion

/-! ### Where the readers agree -/

theorem exists_last (hne : bytes ≠ []) (hmem : lineFeed ∉ bytes) :
    ∃ front last, last ≠ lineFeed ∧ bytes ++ [lineFeed] = front ++ [last, lineFeed] := by
  obtain ⟨front, last, rfl⟩ := (List.eq_nil_or_concat bytes).resolve_left hne
  rw [List.concat_eq_append, List.mem_append, not_or, List.mem_singleton] at hmem
  exact ⟨front, last, Ne.symm hmem.2, by simp⟩

theorem EntriesText.last_line {entries : List SessionPackageEntry} (h : EntriesText entries bytes)
    (hne : entries ≠ []) : ∃ front last, last ≠ lineFeed ∧ bytes = front ++ [last, lineFeed] := by
  induction entries generalizing bytes with
  | nil => exact absurd rfl hne
  | cons entry entries ih =>
    obtain ⟨first, rest, ⟨size, head, -, -, rfl⟩, hrest, rfl⟩ := h
    by_cases hnil : entries = []
    · obtain rfl : rest = [] := by
        rw [hnil] at hrest
        exact hrest
      obtain ⟨-, -, -, -, -, hendentry, -⟩ := lineFeed_not_mem_labels
      obtain ⟨front, last, hlast, hend⟩ := exists_last labels_ne_nil.2.2.2.2.2 hendentry
      refine ⟨head ++ (entry.bytes ++ ([lineFeed] ++ front)), last, hlast, ?_⟩
      simp only [entryEnd, hend, List.append_assoc, List.append_nil]
    · obtain ⟨front, last, hlast, rfl⟩ := ih hrest hnil
      exact ⟨_, last, hlast, (List.append_assoc _ _ _).symm⟩

/-- The last line of a package is not empty. -/
theorem PackageText.last_line {package : SessionPackageData} (h : PackageText package bytes) :
    ∃ front last, last ≠ lineFeed ∧ bytes = front ++ [last, lineFeed] := by
  obtain ⟨created, count, entryCount, entries, -, hcount, -, -, hentries, rfl⟩ := h
  by_cases hnil : package.entries = []
  · rw [hnil] at hentries
    obtain rfl : entries = [] := hentries
    obtain ⟨digits, hmem, -, rfl⟩ := hcount
    obtain ⟨-, -, -, -, hlabel, -⟩ := lineFeed_not_mem_labels
    have hline : lineFeed ∉ text "entries: " ++ digits := by
      rw [List.mem_append, not_or]
      exact ⟨hlabel, hmem⟩
    have hne : text "entries: " ++ digits ≠ [] :=
      List.append_ne_nil_of_left_ne_nil labels_ne_nil.2.2.2.2.1 _
    obtain ⟨front, last, hlast, heq⟩ := exists_last hne hline
    refine ⟨kMagic ++ [lineFeed] ++ (line "version: " kVersion ++ (created ++ front)), last, hlast, ?_⟩
    rw [List.append_nil, show line "entries: " digits = front ++ [last, lineFeed] from heq]
    simp only [List.append_assoc]
  · obtain ⟨front, last, hlast, rfl⟩ := hentries.last_line hnil
    refine ⟨kMagic ++ [lineFeed] ++ (line "version: " kVersion ++ (created ++ (count ++ front))),
      last, hlast, ?_⟩
    simp only [List.append_assoc]

/-- **The readers agree on all bytes but a package without its last line feed.** -/
theorem readers_agree_iff (bytes : Text) :
    (decodeSessionPackage bytes).toOption =
        (readSessionPackage bytes none).toOption.map Prod.fst ↔
      ¬ ∃ package, PackageText package (bytes ++ [lineFeed]) := by
  constructor
  · intro hagree ⟨package, hcut⟩
    rw [readSessionPackage_eq_ok.mpr ⟨rfl, .inr hcut⟩] at hagree
    have hdecode : decodeSessionPackage bytes = .ok package := by
      match hresult : decodeSessionPackage bytes with
      | .ok other =>
        rw [hresult] at hagree
        exact congrArg Except.ok (Option.some.inj hagree)
      | .error error =>
        rw [hresult] at hagree
        cases hagree
    obtain ⟨front, last, hlast, hbytes⟩ := (decodeSessionPackage_eq_ok.mp hdecode).last_line
    obtain ⟨front', last', hlast', hbytes'⟩ := hcut.last_line
    have htwo : (front ++ [last]) ++ [lineFeed, lineFeed] = front' ++ [last', lineFeed] := by
      rw [← hbytes', hbytes]
      simp
    have hlines := (List.append_inj' htwo rfl).2
    exact hlast' (List.cons.inj hlines).1.symm
  · intro hnone
    match hresult : decodeSessionPackage bytes with
    | .ok package =>
      rw [readSessionPackage_eq_ok.mpr ⟨rfl, .inl (decodeSessionPackage_eq_ok.mp hresult)⟩]
      rfl
    | .error error =>
      match hread : readSessionPackage bytes none with
      | .error _ => rfl
      | .ok (package, slice) =>
        obtain ⟨-, hpackage | hpackage⟩ := readSessionPackage_eq_ok.mp hread
        · rw [decodeSessionPackage_eq_ok.mpr hpackage] at hresult
          cases hresult
        · exact absurd ⟨package, hpackage⟩ hnone

/-- A package of no entries whose last line feed is missing: only the file reader takes it. -/
theorem readers_disagree :
    ¬ ∀ bytes : Text, (decodeSessionPackage bytes).toOption =
      (readSessionPackage bytes none).toOption.map Prod.fst := by
  intro hagree
  have h := hagree (text "ProtoScopeSessionPackage\nversion: 1\ncreated_at_ms: 0\nentries: 0")
  revert h
  decide +kernel

end ProtoScope.Session
