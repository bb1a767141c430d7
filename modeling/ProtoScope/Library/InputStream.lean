/-
An input stream over the bytes of a file, as `std::ifstream` reads them.

A line may end with the file instead of a line feed; the stream is then at its end and reads
nothing more.  `Consumes` says what a read takes from the stream: bytes of the file or, at
the end of the file, a last line whose line feed is not there.
-/
import ProtoScope.Library.Lines

namespace ProtoScope.Library

structure InputStream where
  bytes : List UInt8
  position : ℕ := 0
  /-- `eofbit`; a stream that has failed is not read any more. -/
  eof : Bool := false
deriving DecidableEq

namespace InputStream

def lineFeed : UInt8 := 10

def rest (s : InputStream) : List UInt8 := s.bytes.drop s.position

/-- `std::getline` -/
def getline (s : InputStream) : Option (List UInt8 × InputStream) :=
  if s.eof then none
  else
    match Lines.cut lineFeed s.rest with
    | (line, some _) => some (line, { s with position := s.position + (line.length + 1) })
    | (line, none) =>
      if line = [] then none else some (line, { s with position := s.bytes.length, eof := true })

/-- `tellg`, or that it fails -/
def tellg (s : InputStream) : Option ℕ := if s.eof then none else some s.position

/-- `read` of a number of bytes that must all be there -/
def read (count : ℕ) (s : InputStream) : Option (List UInt8 × InputStream) :=
  if s.eof = false ∧ count ≤ s.rest.length then
    some (s.rest.take count, { s with position := s.position + count })
  else none

/-- `seekg` from the current position -/
def skip (count : ℕ) (s : InputStream) : InputStream := { s with position := s.position + count }

/-- `peek` finds the end. -/
def atEnd (s : InputStream) : Bool := s.eof || s.rest.isEmpty

/-- What lies between two states of a stream. -/
def Consumes (s : InputStream) (taken : List UInt8) (after : InputStream) : Prop :=
  s.eof = false ∧ after.bytes = s.bytes ∧
    ((after.eof = false ∧ after.position = s.position + taken.length ∧ s.rest = taken ++ after.rest) ∨
      (after.eof = true ∧ after.position = s.bytes.length ∧ taken = s.rest ++ [lineFeed]))

variable {taken : List UInt8} {after s : InputStream}

theorem rest_advance (s : InputStream) {left : List UInt8} (h : s.rest = taken ++ left) :
    s.bytes.drop (s.position + taken.length) = left := by
  rw [← List.drop_drop]
  show s.rest.drop _ = left
  rw [h, List.drop_left]

theorem Consumes.append {middle : InputStream} {first second : List UInt8}
    (hfirst : s.Consumes first middle) (hsecond : middle.Consumes second after) :
    s.Consumes (first ++ second) after := by
  obtain ⟨heof, hbytes, hleft⟩ := hfirst
  obtain ⟨hmiddle, hbytes', hright⟩ := hsecond
  refine ⟨heof, hbytes'.trans hbytes, ?_⟩
  rw [hmiddle] at hleft
  obtain ⟨-, hposition, hrest⟩ | ⟨hfalse, -⟩ := hleft
  · obtain ⟨hafter, hposition', hrest'⟩ | ⟨hafter, hposition', htaken⟩ := hright
    · left
      refine ⟨hafter, ?_, ?_⟩
      · rw [hposition', hposition, List.length_append]
        omega
      · rw [hrest, hrest', List.append_assoc]
    · right
      refine ⟨hafter, ?_, ?_⟩
      · rw [hposition', hbytes]
      · rw [htaken, hrest, List.append_assoc]
  · cases hfalse

theorem Consumes.position_le (h : s.Consumes taken after) (hne : taken ≠ []) :
    after.position ≤ after.bytes.length := by
  obtain ⟨-, hbytes, ⟨-, hposition, hrest⟩ | ⟨-, hposition, -⟩⟩ := h
  · have hlength := congrArg List.length hrest
    have hpos := List.length_pos_of_ne_nil hne
    simp only [rest, List.length_drop, List.length_append] at hlength
    rw [hbytes, hposition]
    omega
  · rw [hbytes, hposition]

/-- The state between two reads, when the second takes something. -/
theorem Consumes.split {first second : List UInt8} (h : s.Consumes (first ++ second) after)
    (hsecond : second ≠ []) :
    ∃ middle : InputStream, middle.eof = false ∧ s.Consumes first middle ∧
      middle.Consumes second after := by
  obtain ⟨heof, hbytes, hcases⟩ := h
  let middle : InputStream := { s with position := s.position + first.length }
  obtain ⟨hafter, hposition, hrest⟩ | ⟨hafter, hposition, htaken⟩ := hcases
  · rw [List.append_assoc] at hrest
    have hmiddle : middle.rest = second ++ after.rest := s.rest_advance hrest
    refine ⟨middle, heof, ⟨heof, rfl, .inl ⟨heof, rfl, ?_⟩⟩, heof, hbytes, .inl ⟨hafter, ?_, hmiddle⟩⟩
    · rw [hrest, hmiddle]
    · rw [hposition, List.length_append, ← Nat.add_assoc]
  · obtain ⟨front, last, rfl⟩ := (List.eq_nil_or_concat second).resolve_left hsecond
    rw [List.concat_eq_append, ← List.append_assoc] at htaken
    obtain ⟨hrest, hlast⟩ := List.append_inj' htaken rfl
    have hmiddle : middle.rest = front := s.rest_advance hrest.symm
    refine ⟨middle, heof, ⟨heof, rfl, .inl ⟨heof, rfl, ?_⟩⟩, heof, hbytes, .inr ⟨hafter, hposition, ?_⟩⟩
    · rw [hmiddle, hrest]
    · rw [hmiddle, List.concat_eq_append, hlast]

/-- `Consumes`, or nothing is read at all. -/
def Takes (s : InputStream) (taken : List UInt8) (after : InputStream) : Prop :=
  (taken = [] ∧ after = s) ∨ (taken ≠ [] ∧ s.Consumes taken after)

theorem consumes_append {first second : List UInt8} :
    s.Consumes (first ++ second) after ↔
      ∃ middle : InputStream, s.Consumes first middle ∧ middle.Takes second after := by
  constructor
  · intro h
    by_cases hsecond : second = []
    · rw [hsecond, List.append_nil] at h
      exact ⟨after, h, .inl ⟨hsecond, rfl⟩⟩
    · obtain ⟨middle, -, hfirst, hrest⟩ := h.split hsecond
      exact ⟨middle, hfirst, .inr ⟨hsecond, hrest⟩⟩
  · intro ⟨middle, hfirst, hrest⟩
    obtain ⟨hnil, hsame⟩ | ⟨-, hsecond⟩ := hrest
    · rw [hnil, List.append_nil, hsame]
      exact hfirst
    · exact hfirst.append hsecond

/-- **A line is what lies before a line feed**, or what is left of the file. -/
theorem getline_eq_some {line : List UInt8} :
    s.getline = some (line, after) ↔
      lineFeed ∉ line ∧ s.Consumes (line ++ [lineFeed]) after ∧ (after.eof = true → line ≠ []) := by
  unfold getline
  constructor
  · intro h
    split at h
    · cases h
    · rename_i heof
      rw [Bool.not_eq_true] at heof
      split at h
      · rename_i first left hcut
        cases h
        have hrest := Lines.eq_of_cut hcut
        have hmem : lineFeed ∉ line := by
          rw [show line = (Lines.cut lineFeed s.rest).1 by rw [hcut]]
          exact Lines.not_mem_cut _
        have hbytes : s.rest = (line ++ [lineFeed]) ++ left := by simp [hrest]
        refine ⟨hmem, ⟨heof, rfl, .inl ⟨heof, by simp, ?_⟩⟩, ?_⟩
        · have hleft := s.rest_advance hbytes
          rw [List.length_append, List.length_singleton] at hleft
          show s.rest = _ ++ s.bytes.drop _
          rw [hleft, hbytes]
        · intro htrue
          rw [heof] at htrue
          cases htrue
      · rename_i first hcut
        split at h
        · cases h
        · rename_i hne
          cases h
          obtain ⟨hrest, hmem⟩ := Lines.eq_of_cut_none hcut
          rw [hrest] at hmem
          exact ⟨hmem, ⟨heof, rfl, .inr ⟨rfl, rfl, by rw [hrest]⟩⟩, fun _ => hne⟩
  · rintro ⟨hmem, ⟨heof, hbytes, hcases⟩, hne⟩
    rw [if_neg (by rw [heof]; exact Bool.false_ne_true)]
    obtain ⟨bytes, position, eof⟩ := after
    obtain rfl : bytes = s.bytes := hbytes
    obtain ⟨hafter, hposition, hrest⟩ | ⟨hafter, hposition, htaken⟩ := hcases
    · rw [List.append_assoc] at hrest
      rw [hrest, List.singleton_append, Lines.cut_append hmem]
      rw [List.length_append, List.length_singleton] at hposition
      dsimp only at hafter hposition ⊢
      rw [hposition, hafter, heof]
    · obtain ⟨hline, -⟩ := List.append_inj' htaken rfl
      rw [← hline, Lines.cut_of_not_mem hmem]
      dsimp only at hafter hposition ⊢
      rw [if_neg (hne hafter), hposition, hafter]

theorem read_eq_some {count : ℕ} :
    s.read count = some (taken, after) ↔
      taken.length = count ∧ after.eof = false ∧ s.Consumes taken after := by
  unfold read
  constructor
  · intro h
    split at h
    · rename_i hguard
      cases h
      have hlength := List.length_take_of_le hguard.2
      refine ⟨hlength, hguard.1, hguard.1, rfl, .inl ⟨hguard.1, by rw [hlength], ?_⟩⟩
      have hleft := s.rest_advance (List.take_append_drop count s.rest).symm
      rw [hlength] at hleft
      show s.rest = _ ++ s.bytes.drop _
      rw [hleft, List.take_append_drop]
    · cases h
  · rintro ⟨hcount, heof', heof, hbytes, hcases⟩
    obtain ⟨bytes, position, eof⟩ := after
    obtain rfl : bytes = s.bytes := hbytes
    obtain ⟨hafter, hposition, hrest⟩ | ⟨hafter, -⟩ := hcases
    · have hlength : count ≤ s.rest.length := by
        rw [hrest, List.length_append, ← hcount]
        omega
      have htake : s.rest.take count = taken := by
        rw [hrest, ← hcount, List.take_left]
      rw [if_pos ⟨heof, hlength⟩, htake]
      dsimp only at hafter hposition ⊢
      rw [hposition, hafter, hcount, heof]
    · rw [heof'] at hafter
      cases hafter

/-- A whole file has been read: all its bytes, or all with a line feed after them. -/
theorem consumes_atEnd {bytes : List UInt8} :
    (∃ after, (InputStream.mk bytes 0 false).Consumes taken after ∧ after.atEnd = true) ↔
      taken = bytes ∨ taken = bytes ++ [lineFeed] := by
  constructor
  · rintro ⟨after, ⟨-, hbytes, hcases⟩, hend⟩
    obtain ⟨hafter, -, hrest⟩ | ⟨-, -, htaken⟩ := hcases
    · left
      unfold atEnd at hend
      rw [hafter, Bool.false_or, List.isEmpty_iff] at hend
      rw [hend, List.append_nil] at hrest
      exact hrest.symm
    · exact .inr htaken
  · rintro (rfl | rfl)
    · refine ⟨⟨taken, taken.length, false⟩, ⟨rfl, rfl, .inl ⟨rfl, by simp, ?_⟩⟩, ?_⟩
      · simp [rest]
      · simp [atEnd, rest]
    · exact ⟨⟨bytes, bytes.length, true⟩, ⟨rfl, rfl, .inr ⟨rfl, rfl, by simp [rest]⟩⟩, rfl⟩

end InputStream

end ProtoScope.Library
