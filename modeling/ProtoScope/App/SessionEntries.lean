/-
The entries of a session package that hold its protocol, and where they are written.

A package comes from outside, so every entry name is checked before one is used.  The
protocol's entries carry a prefix in the package; what follows it is appended to the
directory they are written to.
-/
import ProtoScope.Library.LexicalPath
import ProtoScope.Session.SessionPackage

namespace ProtoScope.App

open ProtoScope.Data (Text text)
open ProtoScope.Library.LexicalPath
open ProtoScope.Session (SessionPackageData SessionPackageEntry)

def kSessionProtocolEntryPrefix : Text := text "protocol/"

/-- What the loop over the name accepts between two separators. -/
def isSafeSegment (segment : Text) : Bool :=
  !(segment.isEmpty || segment == here || segment == parent)

/-- The loop over the name; `segment` is what it passed since `segmentStart`. -/
def hasSafeSegments (segment : Text) : Text → Bool
  | [] => isSafeSegment segment
  | c :: rest =>
    if c = colon then false
    else if c = slash ∨ c = backslash then isSafeSegment segment && hasSafeSegments [] rest
    else hasSafeSegments (segment ++ [c]) rest

def isSafeSessionPackageEntryName (name : Text) : Bool :=
  match name with
  | [] => false
  | first :: rest =>
    if first = slash ∨ first = backslash then false
    else if rest.head? = some colon ∧ isLetter first = true then false
    else hasSafeSegments [] name

/-- The error, where an entry is refused. -/
def validateSessionPackageEntries (package : SessionPackageData) : Option Text :=
  (package.entries.find? fun entry => !isSafeSessionPackageEntryName entry.name).map fun entry =>
    text "现场包包含不安全条目: " ++ entry.name

def collectSessionProtocolEntries (package : SessionPackageData) : List SessionPackageEntry :=
  package.entries.filter fun entry => kSessionProtocolEntryPrefix.isPrefixOf entry.name

/-- `protocolDir / path(relativeName)` -/
def entryOutputPath (convention : Convention) (protocolDir : FilePath) (name : Text) : FilePath :=
  protocolDir.append convention (parse convention (name.drop kSessionProtocolEntryPrefix.length))

/-- Writes entry after entry and stops at the first that fails; the result is the paths
written to and the error. -/
def releaseSessionProtocolEntries (convention : Convention)
    (writeFileBytes : FilePath → List UInt8 → Option Text) (protocolDir : FilePath) :
    List SessionPackageEntry → List FilePath × Option Text
  | [] => ([], none)
  | entry :: entries =>
    let outputPath := entryOutputPath convention protocolDir entry.name
    match writeFileBytes outputPath entry.bytes with
    | some writeError => ([outputPath], some (text "释放现场包协议目录失败: " ++ writeError))
    | none =>
      let (written, error) :=
        releaseSessionProtocolEntries convention writeFileBytes protocolDir entries
      (outputPath :: written, error)

/-- Chooses the protocol of an import: the paths written to, and the directory of the package's
protocol unless the current one is used. -/
def selectSessionImportProtocol (convention : Convention)
    (writeFileBytes : FilePath → List UInt8 → Option Text) (useCurrent : Bool)
    (extractedDirectory : FilePath) (package : SessionPackageData) :
    List FilePath × Except Text (Option FilePath) :=
  let entries := collectSessionProtocolEntries package
  if useCurrent || entries.isEmpty then ([], .ok none)
  else if !entries.any fun entry => entry.name == text "protocol/main.lua" then
    ([], .error (text "现场包协议损坏：缺少 protocol/main.lua"))
  else
    let (written, error) :=
      releaseSessionProtocolEntries convention writeFileBytes extractedDirectory entries
    (written, match error with
      | some error => .error error
      | none => .ok (some extractedDirectory))

/-- The part of `applySessionPackage` that writes files: the names are checked first. -/
def importSessionProtocol (convention : Convention)
    (writeFileBytes : FilePath → List UInt8 → Option Text) (useCurrent : Bool)
    (extractedDirectory : FilePath) (package : SessionPackageData) :
    List FilePath × Except Text (Option FilePath) :=
  match validateSessionPackageEntries package with
  | some error => ([], .error error)
  | none =>
    selectSessionImportProtocol convention writeFileBytes useCurrent extractedDirectory package

end ProtoScope.App
