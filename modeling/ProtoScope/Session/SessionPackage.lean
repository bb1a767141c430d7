/-
The package of a session: a few header lines and entries, each a name, a size and as many
bytes between two text markers.

There are two readers.  `decodeSessionPackage` works on a view of all bytes with a cursor,
here the bytes from the cursor on; `readSessionPackage` reads the lines of a file stream and
can leave the bytes of the raw capture where they are.  Files are read and written whole:
requests to stop, failing streams and the replacement of the target are left out.
-/
import ProtoScope.Data.Model
import ProtoScope.Library.Decimal
import ProtoScope.Library.InputStream

namespace ProtoScope.Session

open ProtoScope.Data (Text text)
open ProtoScope.Library

def lineFeed : UInt8 := InputStream.lineFeed

def kMagic : Text := text "ProtoScopeSessionPackage"

def kVersion : Text := text "1"

def kMaxSessionPackageEntries : ℕ := 10000

/-- The bytes written or read at once. -/
def sliceSize : ℕ := 65536

/-- A vector has a size of 64 bits. -/
@[ext]
structure SessionPackageEntry where
  name : Text := []
  bytes : List UInt8 := []
  size_lt : bytes.length < 2 ^ 64 := by decide
deriving DecidableEq

@[ext]
structure SessionPackageData where
  createdAtMs : UInt64 := 0
  entries : List SessionPackageEntry := []
deriving DecidableEq

structure SessionRawCaptureSlice where
  offset : ℕ := 0
  size : ℕ := 0
deriving DecidableEq

/-- `std::from_chars`, and no character is left. -/
def parseUnsigned (value : Text) : Option UInt64 :=
  (Decimal.parse value).bind fun n => if n < 2 ^ 64 then some (UInt64.ofNat n) else none

/-- `std::size_t` has 64 bits. -/
def parseSize : Text → Option UInt64 := parseUnsigned

/-! ### Writing -/

/-- A line that begins with a label. -/
def line (label : String) (value : Text) : Text := text label ++ value ++ [lineFeed]

def encodeHeader (package : SessionPackageData) : Text :=
  kMagic ++ [lineFeed] ++ line "version: " kVersion ++
    line "created_at_ms: " (Decimal.render package.createdAtMs.toNat) ++
    line "entries: " (Decimal.render package.entries.length)

def encodeEntry (entry : SessionPackageEntry) : Text :=
  line "entry: " entry.name ++ line "size: " (Decimal.render entry.bytes.length) ++ [lineFeed] ++
    entry.bytes ++ line "\nendentry" []

def encodeSessionPackage (package : SessionPackageData) : Text :=
  encodeHeader package ++ package.entries.flatMap encodeEntry

/-- The bytes of an entry, a slice at a time. -/
def writeSlices (bytes : List UInt8) : Text :=
  if bytes = [] then [] else bytes.take sliceSize ++ writeSlices (bytes.drop sliceSize)
termination_by bytes.length
decreasing_by
  rename_i h
  have := List.length_pos_of_ne_nil h
  simp only [List.length_drop, sliceSize]
  omega

def writeEntry (entry : SessionPackageEntry) : Text :=
  line "entry: " entry.name ++ text "size: " ++ Decimal.render entry.bytes.length ++
    [lineFeed, lineFeed] ++ writeSlices entry.bytes ++ text "\nendentry\n"

/-- The file that replaces the target. -/
def writeSessionPackage (package : SessionPackageData) : Text :=
  kMagic ++ [lineFeed] ++ text "version: " ++ kVersion ++ [lineFeed] ++ text "created_at_ms: " ++
    Decimal.render package.createdAtMs.toNat ++ [lineFeed] ++ text "entries: " ++
    Decimal.render package.entries.length ++ [lineFeed] ++ package.entries.flatMap writeEntry

/-! ### Decoding in memory -/

def refuse (condition : Prop) [Decidable condition] (error : Text) : Except Text Unit :=
  if condition then .error error else .ok ()

theorem refuse_eq_ok {condition : Prop} [Decidable condition] {error : Text} {done : Unit} :
    refuse condition error = .ok done ↔ ¬ condition := by
  unfold refuse
  by_cases h : condition
  · simp [h]
  · simp [h]

/-- What lies before the next line feed and what lies after it. -/
def consumeLine (rest : Text) : Option (Text × Text) :=
  match Lines.cut lineFeed rest with
  | (line, some rest) => some (line, rest)
  | (_, none) => none

def consumePrefixedLine (label : String) (rest : Text) : Except Text (Text × Text) :=
  match consumeLine rest with
  | none => .error (text "会话包头部不完整")
  | some (line, rest) =>
    if (text label).isPrefixOf line then .ok (line.drop (text label).length, rest)
    else .error (text "会话包字段缺失: " ++ text label)

/-- A number after a label; either failure is reported alike. -/
def consumeNumberLine (label : String) (error : Text) (rest : Text) : Except Text (UInt64 × Text) :=
  match consumePrefixedLine label rest with
  | .error _ => .error error
  | .ok (value, rest) =>
    match parseUnsigned value with
    | none => .error error
    | some value => .ok (value, rest)

/-- A line with nothing but what is expected. -/
def consumeExactLine (expected error rest : Text) : Except Text Text :=
  match consumeLine rest with
  | none => .error error
  | some (line, rest) => if line = expected then .ok rest else .error error

theorem length_take_lt (size : UInt64) (rest : Text) : (rest.take size.toNat).length < 2 ^ 64 :=
  (List.length_take_le _ _).trans_lt size.toNat_lt

def decodeEntry (rest : Text) : Except Text (SessionPackageEntry × Text) := do
  let (name, rest) ← consumePrefixedLine "entry: " rest
  refuse (name = []) (text "会话包条目名称不能为空")
  let (size, rest) ← consumeNumberLine "size: " (text "会话包条目大小无效: " ++ name) rest
  let rest ← consumeExactLine [] (text "会话包条目头部缺少空行: " ++ name) rest
  refuse (rest.length < size.toNat) (text "会话包条目内容被截断: " ++ name)
  let entry : SessionPackageEntry :=
    { name := name, bytes := rest.take size.toNat, size_lt := length_take_lt size rest }
  let rest ← consumeExactLine [] (text "会话包条目结束换行缺失: " ++ name) (rest.drop size.toNat)
  let rest ← consumeExactLine (text "endentry") (text "会话包条目结束标记缺失: " ++ name) rest
  return (entry, rest)

def decodeEntries : ℕ → Text → Except Text (List SessionPackageEntry × Text)
  | 0, rest => .ok ([], rest)
  | count + 1, rest => do
    let (entry, rest) ← decodeEntry rest
    let (entries, rest) ← decodeEntries count rest
    return (entry :: entries, rest)

def decodeSessionPackage (bytes : Text) : Except Text SessionPackageData := do
  let rest ← consumeExactLine kMagic (text "不是 ProtoScope 会话包") bytes
  let (version, rest) ← consumePrefixedLine "version: " rest
  refuse (version ≠ kVersion) (text "不支持的会话包版本: " ++ version)
  let (createdAtMs, rest) ← consumeNumberLine "created_at_ms: " (text "会话包 created_at_ms 无效") rest
  let (entryCount, rest) ← consumeNumberLine "entries: " (text "会话包 entries 无效") rest
  refuse (kMaxSessionPackageEntries < entryCount.toNat ∨ bytes.length < entryCount.toNat)
    (text "会话包 entries 超出限制")
  let (entries, rest) ← decodeEntries entryCount.toNat rest
  refuse (rest ≠ []) (text "会话包末尾存在未知数据")
  return { createdAtMs, entries }

/-! ### Reading a file -/

/-- The value of a line that begins with a label. -/
def field (label : String) (s : InputStream) : Except Text (Text × InputStream) :=
  match s.getline with
  | none => .error (text "会话包字段缺失: " ++ text label)
  | some (line, s) =>
    if (text label).isPrefixOf line then .ok (line.drop (text label).length, s)
    else .error (text "会话包字段缺失: " ++ text label)

/-- A field whose failure is reported as the failure of the lines around it. -/
def fieldOr (label : String) (error : Text) (s : InputStream) : Except Text (Text × InputStream) :=
  match field label s with
  | .error _ => .error error
  | .ok result => .ok result

def numberOr (label : String) (error : Text) (s : InputStream) : Except Text (UInt64 × InputStream) :=
  match field label s with
  | .error _ => .error error
  | .ok (value, s) =>
    match parseUnsigned value with
    | none => .error error
    | some value => .ok (value, s)

def lineOr (expected error : Text) (s : InputStream) : Except Text InputStream :=
  match s.getline with
  | none => .error error
  | some (line, s) => if line = expected then .ok s else .error error

/-- The bytes of an entry, a slice at a time. -/
def readSlices (size : ℕ) (s : InputStream) : Except Text (List UInt8 × InputStream) :=
  if size = 0 then .ok ([], s)
  else
    match s.read (min sliceSize size) with
    | none => .error (text "会话包条目内容被截断")
    | some (slice, s) => do
      let (slices, s) ← readSlices (size - min sliceSize size) s
      return (slice ++ slices, s)
termination_by size
decreasing_by
  unfold sliceSize
  omega

/-- The name and the size of an entry, and the stream where its bytes begin. -/
def readEntryHead (s : InputStream) : Except Text (Text × UInt64 × InputStream) := do
  let error := text "会话包条目头部无效"
  let (name, s) ← fieldOr "entry: " error s
  refuse (name = []) error
  let (size, s) ← numberOr "size: " error s
  let s ← lineOr [] error s
  match s.tellg with
  | none => .error (text "会话包条目内容被截断")
  | some position =>
    refuse (s.bytes.length < position ∨ s.bytes.length - position < size.toNat)
      (text "会话包条目内容被截断")
    return (name, size, s)

def readEntryEnd (s : InputStream) : Except Text InputStream := do
  let error := text "会话包条目结束标记缺失"
  let s ← lineOr [] error s
  lineOr (text "endentry") error s

/-- The bytes of an entry; the raw capture's, when the caller asks, stay in the file. -/
def readEntryBytes (name : Text) (size : UInt64) (rawSlice : Option SessionRawCaptureSlice)
    (s : InputStream) :
    Except Text (List UInt8 × Option SessionRawCaptureSlice × InputStream) :=
  match rawSlice with
  | some slice =>
    if name = text "raw_capture.psraw" then
      if slice.size ≠ 0 then .error (text "现场包包含重复原始数据")
      else .ok ([], some { offset := s.position, size := size.toNat }, s.skip size.toNat)
    else do
      let (bytes, s) ← readSlices size.toNat s
      return (bytes, some slice, s)
  | none => do
    let (bytes, s) ← readSlices size.toNat s
    return (bytes, none, s)

theorem length_readSlices {size : ℕ} {s after : InputStream} {bytes : List UInt8}
    (h : readSlices size s = .ok (bytes, after)) : bytes.length = size := by
  induction size using Nat.strong_induction_on generalizing s bytes with
  | _ size ih =>
    rw [readSlices] at h
    split at h
    · rename_i hzero
      cases h
      exact hzero.symm
    · split at h
      · cases h
      · rename_i hne slice next hread
        obtain ⟨⟨slices, last⟩, hslices, h⟩ := Data.bind_eq_ok.mp h
        cases h
        have hlt : size - min sliceSize size < size := by
          unfold sliceSize
          omega
        have hlength := ih _ hlt hslices
        have hslice := (InputStream.read_eq_some.mp hread).1
        rw [List.length_append, hlength, hslice]
        omega

theorem length_readEntryBytes {name : Text} {size : UInt64} {rawSlice left : Option SessionRawCaptureSlice}
    {s after : InputStream} {bytes : List UInt8}
    (h : readEntryBytes name size rawSlice s = .ok (bytes, left, after)) : bytes.length < 2 ^ 64 := by
  unfold readEntryBytes at h
  split at h
  · split at h
    · split at h
      · cases h
      · cases h
        decide
    · obtain ⟨⟨slices, last⟩, hslices, h⟩ := Data.bind_eq_ok.mp h
      cases h
      rw [length_readSlices hslices]
      exact size.toNat_lt
  · obtain ⟨⟨slices, last⟩, hslices, h⟩ := Data.bind_eq_ok.mp h
    cases h
    rw [length_readSlices hslices]
    exact size.toNat_lt

def readEntry (rawSlice : Option SessionRawCaptureSlice) (s : InputStream) :
    Except Text (SessionPackageEntry × Option SessionRawCaptureSlice × InputStream) :=
  match readEntryHead s with
  | .error error => .error error
  | .ok (name, size, s) =>
    match hbytes : readEntryBytes name size rawSlice s with
    | .error error => .error error
    | .ok (bytes, rawSlice, s) => do
      let s ← readEntryEnd s
      return ({ name, bytes, size_lt := length_readEntryBytes hbytes }, rawSlice, s)

def readEntries : ℕ → Option SessionRawCaptureSlice → InputStream →
    Except Text (List SessionPackageEntry × Option SessionRawCaptureSlice × InputStream)
  | 0, rawSlice, s => .ok ([], rawSlice, s)
  | count + 1, rawSlice, s => do
    let (entry, rawSlice, s) ← readEntry rawSlice s
    let (entries, rawSlice, s) ← readEntries count rawSlice s
    return (entry :: entries, rawSlice, s)

/-- The package, and where the raw capture lies if the caller has asked for that. -/
def readSessionPackage (file : Text) (rawSlice : Option SessionRawCaptureSlice) :
    Except Text (SessionPackageData × Option SessionRawCaptureSlice) := do
  let s ← lineOr kMagic (text "不是 ProtoScope 会话包") { bytes := file }
  let (version, s) ← fieldOr "version: " (text "不支持的会话包版本") s
  refuse (version ≠ kVersion) (text "不支持的会话包版本")
  let error := text "会话包头部无效"
  let (createdAtMs, s) ← numberOr "created_at_ms: " error s
  let (entryCount, s) ← numberOr "entries: " error s
  refuse (kMaxSessionPackageEntries < entryCount.toNat) error
  let (entries, rawSlice, s) ← readEntries entryCount.toNat rawSlice s
  refuse (s.atEnd = false) (text "会话包末尾存在未知数据")
  return ({ createdAtMs, entries }, rawSlice)

end ProtoScope.Session
