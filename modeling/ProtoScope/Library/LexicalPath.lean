/-
Paths as text: where their segments begin and end, what an absolute or a drive-relative
path is, what appending one path to another gives, and what is left of a path when `.` and
`..` are resolved without looking at a file system.

There are two conventions.  Under one only the slash separates and a path has at most a
root; under the other the backslash separates too and a path may begin with a drive or a
host.
-/
import Mathlib.Data.List.Basic
import Mathlib.Tactic.Common

namespace ProtoScope.Library.LexicalPath

abbrev Segment : Type := List UInt8

def slash : UInt8 := 47

def backslash : UInt8 := 92

def colon : UInt8 := 58

/-- The segment that stays where it is. -/
def here : Segment := [46]

/-- The segment that goes one directory up. -/
def parent : Segment := [46, 46]

inductive Convention where
  | posix
  | windows
deriving DecidableEq

def Convention.isSeparator : Convention → UInt8 → Bool
  | .posix, c => c == slash
  | .windows, c => c == slash || c == backslash

def isLetter (c : UInt8) : Bool := (65 ≤ c && c ≤ 90) || (97 ≤ c && c ≤ 122)

/-- A drive, or the name of a host behind two separators. -/
def Convention.rootName : Convention → List UInt8 → List UInt8
  | .windows, first :: second :: rest =>
    if isLetter first && second == colon then [first, second]
    else if Convention.windows.isSeparator first && Convention.windows.isSeparator second &&
        rest.head?.any (fun c => !Convention.windows.isSeparator c) then
      first :: second :: rest.takeWhile fun c => !Convention.windows.isSeparator c
    else []
  | _, _ => []

structure FilePath where
  rootName : Segment := []
  hasRootDirectory : Bool := false
  components : List Segment := []
deriving DecidableEq

def parse (convention : Convention) (name : List UInt8) : FilePath :=
  let rootName := convention.rootName name
  let rest := name.drop rootName.length
  { rootName := rootName
    hasRootDirectory := rest.head?.any convention.isSeparator
    components := (rest.splitOnP convention.isSeparator).filter (· ≠ []) }

namespace FilePath

def isAbsolute (convention : Convention) (path : FilePath) : Bool :=
  path.hasRootDirectory && (convention == .posix || path.rootName != [])

/-- Appending: an absolute path, or one of another drive, replaces what stands before it. -/
def append (convention : Convention) (base path : FilePath) : FilePath :=
  if path.isAbsolute convention || (path.rootName != [] && path.rootName != base.rootName) then path
  else if path.hasRootDirectory then
    { rootName := base.rootName, hasRootDirectory := true, components := path.components }
  else { base with components := base.components ++ path.components }

/-- One component, on the stack of those before it.  There is nothing above a root; a path
without one keeps what goes above its start. -/
def resolveStep (rooted : Bool) (stack : List Segment) (component : Segment) : List Segment :=
  if component = here then stack
  else if component = parent then
    if stack.getLast?.any (· ≠ parent) then stack.dropLast
    else if rooted then stack
    else stack ++ [component]
  else stack ++ [component]

def resolve (path : FilePath) : List Segment :=
  path.components.foldl (resolveStep path.hasRootDirectory) []

/-- The path lies below the directory: same root, and when both are resolved the directory
is followed by at least one component, none of which goes up. -/
def StrictlyInside (directory path : FilePath) : Prop :=
  path.rootName = directory.rootName ∧ path.hasRootDirectory = directory.hasRootDirectory ∧
    ∃ below, below ≠ [] ∧ (∀ component ∈ below, component ≠ parent) ∧
      path.resolve = directory.resolve ++ below

end FilePath

/-! ### Splitting -/

section Split

variable {α : Type} {coarse fine : α → Bool}

/-- Splitting at more separators splits each piece. -/
theorem splitOnP_eq_flatMap (h : ∀ x, coarse x = true → fine x = true) (xs : List α) :
    xs.splitOnP fine = (xs.splitOnP coarse).flatMap (List.splitOnP fine) := by
  induction xs with
  | nil => simp
  | cons x xs ih =>
    obtain ⟨first, rest, hsplit⟩ :=
      List.exists_cons_of_ne_nil (List.splitOnP_ne_nil coarse xs)
    rw [List.splitOnP_cons_eq_if_modifyHead, List.splitOnP_cons_eq_if_modifyHead, ih, hsplit]
    by_cases hcoarse : coarse x = true
    · rw [if_pos (h x hcoarse), if_pos hcoarse]
      simp
    · rw [if_neg hcoarse]
      simp only [List.modifyHead_cons, List.flatMap_cons, List.splitOnP_cons_eq_if_modifyHead]
      by_cases hfine : fine x = true
      · rw [if_pos hfine, if_pos hfine]
        rfl
      · rw [if_neg hfine, if_neg hfine]
        obtain ⟨head, tail, hfirst⟩ :=
          List.exists_cons_of_ne_nil (List.splitOnP_ne_nil fine first)
        simp [hfirst]

end Split

/-! ### Segments that name something -/

/-- The segment is not empty, does not stay and does not go up. -/
def Plain (segment : Segment) : Prop := segment ≠ [] ∧ segment ≠ here ∧ segment ≠ parent

instance (segment : Segment) : Decidable (Plain segment) :=
  inferInstanceAs (Decidable (_ ∧ _ ∧ _))

/-- A segment whose pieces are plain is plain: the segments that are not have one piece,
themselves. -/
theorem Plain.of_pieces {separator : UInt8 → Bool} (hdot : separator 46 = false) {segment : Segment}
    (h : ∀ piece ∈ segment.splitOnP separator, Plain piece) : Plain segment := by
  have hself : (∀ c ∈ segment, separator c = false) → Plain segment := fun hnone =>
    h segment (by rw [List.splitOnP_eq_singleton hnone]; exact List.mem_singleton.mpr rfl)
  refine ⟨?_, ?_, ?_⟩
  · rintro rfl
    exact (hself (by simp)).1 rfl
  · rintro rfl
    exact (hself (by simpa [here] using hdot)).2.1 rfl
  · rintro rfl
    exact (hself (by simpa [parent] using hdot)).2.2 rfl

/-- What is plain under the convention with more separators is plain under both. -/
theorem plain_splitOnP (convention : Convention) {name : List UInt8}
    (h : ∀ segment ∈ name.splitOnP Convention.windows.isSeparator, Plain segment) :
    ∀ segment ∈ name.splitOnP convention.isSeparator, Plain segment := by
  cases convention with
  | windows => exact h
  | posix =>
    have hmore : ∀ c, Convention.posix.isSeparator c = true →
        Convention.windows.isSeparator c = true := by
      intro c hc
      simp only [Convention.isSeparator, Bool.or_eq_true] at hc ⊢
      exact Or.inl hc
    intro segment hsegment
    refine @Plain.of_pieces Convention.windows.isSeparator (by decide) segment fun piece hpiece => ?_
    refine h piece ?_
    rw [splitOnP_eq_flatMap hmore]
    exact List.mem_flatMap.mpr ⟨segment, hsegment, hpiece⟩

namespace FilePath

variable {rooted : Bool} {segments : List Segment}

theorem foldl_resolveStep (h : ∀ segment ∈ segments, Plain segment) (stack : List Segment) :
    segments.foldl (resolveStep rooted) stack = stack ++ segments := by
  induction segments generalizing stack with
  | nil => simp
  | cons segment segments ih =>
    obtain ⟨-, hhere, hparent⟩ := h segment List.mem_cons_self
    rw [List.foldl_cons, ih fun other hother => h other (List.mem_cons_of_mem _ hother),
      resolveStep, if_neg hhere, if_neg hparent, List.append_assoc]
    rfl

/-- Appending a relative path of plain segments leads below the directory. -/
theorem strictlyInside_append (convention : Convention) (directory : FilePath) {path : FilePath}
    (hname : path.rootName = []) (hroot : path.hasRootDirectory = false)
    (hnonempty : path.components ≠ []) (h : ∀ segment ∈ path.components, Plain segment) :
    StrictlyInside directory (directory.append convention path) := by
  have happend : directory.append convention path =
      { directory with components := directory.components ++ path.components } := by
    simp [append, isAbsolute, hname, hroot]
  rw [happend]
  refine ⟨rfl, rfl, path.components, hnonempty, fun segment hsegment => (h segment hsegment).2.2, ?_⟩
  rw [resolve, List.foldl_append, foldl_resolveStep h]
  rfl

end FilePath

/-- Text without a colon whose segments are plain is a relative path. -/
theorem parse_of_plain (convention : Convention) {name : List UInt8} (hcolon : colon ∉ name)
    (h : ∀ segment ∈ name.splitOnP convention.isSeparator, Plain segment) :
    parse convention name = { components := name.splitOnP convention.isSeparator } := by
  have hfirst : name.head?.any convention.isSeparator = false := by
    cases name with
    | nil => rfl
    | cons first rest =>
      by_contra hc
      rw [Bool.not_eq_false, List.head?_cons, Option.any_some] at hc
      refine (h [] ?_).1 rfl
      rw [List.splitOnP_cons_eq_if_modifyHead, if_pos hc]
      exact List.mem_cons_self
  have hrootName : convention.rootName name = [] := by
    cases convention with
    | posix => rfl
    | windows =>
      match name, hfirst, hcolon with
      | [], _, _ => rfl
      | [_], _, _ => rfl
      | first :: second :: rest, hfirst, hcolon =>
        have hsecond : second ≠ colon := by
          rintro rfl
          exact hcolon (List.mem_cons_of_mem _ List.mem_cons_self)
        rw [List.head?_cons, Option.any_some] at hfirst
        simp [Convention.rootName, hsecond, hfirst]
  have hfilter : (name.splitOnP convention.isSeparator).filter (· ≠ []) =
      name.splitOnP convention.isSeparator := by
    rw [List.filter_eq_self]
    intro segment hsegment
    exact decide_eq_true (h segment hsegment).1
  simp only [parse, hrootName, List.length_nil, List.drop_zero, hfirst, hfilter]

end ProtoScope.Library.LexicalPath
