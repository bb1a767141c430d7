/-
Where the protocol of a session package may be written to.

The check of a name looks at the pieces between both separators, so what it accepts is a
list of plain segments without a colon.  The prefix is one of them.  What follows it is
such a list again, and a relative path of plain segments leads below the directory it is
appended to, whether or not the backslash separates there.
-/
import ProtoScope.App.SessionEntries

namespace ProtoScope.App

open ProtoScope.Data (Text text)
open ProtoScope.Library.LexicalPath
open ProtoScope.Session (SessionPackageData SessionPackageEntry)

theorem plain_of_isSafeSegment {segment : Text} (h : isSafeSegment segment = true) :
    Plain segment := by
  simp only [isSafeSegment, Bool.not_eq_true', Bool.or_eq_false_iff, List.isEmpty_eq_false_iff,
    beq_eq_false_iff_ne] at h
  exact ⟨h.1.1, h.1.2, h.2⟩

/-- The loop accepts only plain segments, the first of them begun before it, and no colon. -/
theorem plain_of_hasSafeSegments {segment name : Text} (h : hasSafeSegments segment name = true) :
    colon ∉ name ∧
      ∀ piece ∈ (name.splitOnP Convention.windows.isSeparator).modifyHead (segment ++ ·),
        Plain piece := by
  induction name generalizing segment with
  | nil =>
    refine ⟨List.not_mem_nil, fun piece hpiece => ?_⟩
    rw [List.splitOnP_nil, List.modifyHead_cons, List.append_nil, List.mem_singleton] at hpiece
    rw [hpiece]
    exact plain_of_isSafeSegment h
  | cons c rest ih =>
    rw [hasSafeSegments] at h
    by_cases hcolon : c = colon
    · rw [if_pos hcolon] at h
      cases h
    rw [if_neg hcolon] at h
    have hnotMem : ∀ {tail : Text}, colon ∉ tail → colon ∉ c :: tail := fun htail hmem =>
      (List.mem_cons.mp hmem).elim (fun hc => hcolon hc.symm) htail
    by_cases hseparator : c = slash ∨ c = backslash
    · rw [if_pos hseparator, Bool.and_eq_true] at h
      obtain ⟨hfree, hpieces⟩ := ih h.2
      have hc : Convention.windows.isSeparator c = true := by
        simpa [Convention.isSeparator] using hseparator
      refine ⟨hnotMem hfree, fun piece hpiece => ?_⟩
      rw [List.splitOnP_cons_eq_if_modifyHead, if_pos hc, List.modifyHead_cons, List.append_nil,
        List.mem_cons] at hpiece
      rcases hpiece with rfl | hpiece
      · exact plain_of_isSafeSegment h.1
      · refine hpieces piece ?_
        obtain ⟨head, tail, hsplit⟩ :=
          List.exists_cons_of_ne_nil (List.splitOnP_ne_nil Convention.windows.isSeparator rest)
        rw [hsplit] at hpiece ⊢
        exact hpiece
    · rw [if_neg hseparator] at h
      obtain ⟨hfree, hpieces⟩ := ih h
      have hc : ¬ Convention.windows.isSeparator c = true := by
        simpa [Convention.isSeparator] using hseparator
      refine ⟨hnotMem hfree, fun piece hpiece => hpieces piece ?_⟩
      rw [List.splitOnP_cons_eq_if_modifyHead, if_neg hc] at hpiece
      obtain ⟨head, tail, hsplit⟩ :=
        List.exists_cons_of_ne_nil (List.splitOnP_ne_nil Convention.windows.isSeparator rest)
      rw [hsplit] at hpiece ⊢
      simpa [List.append_assoc] using hpiece

theorem plain_of_isSafe {name : Text} (h : isSafeSessionPackageEntryName name = true) :
    colon ∉ name ∧ ∀ piece ∈ name.splitOnP Convention.windows.isSeparator, Plain piece := by
  cases name with
  | nil => cases h
  | cons first rest =>
    dsimp only [isSafeSessionPackageEntryName] at h
    split at h
    · cases h
    · split at h
      · cases h
      · obtain ⟨hfree, hpieces⟩ := plain_of_hasSafeSegments h
        refine ⟨hfree, fun piece hpiece => hpieces piece ?_⟩
        obtain ⟨head, tail, hsplit⟩ := List.exists_cons_of_ne_nil
          (List.splitOnP_ne_nil Convention.windows.isSeparator (first :: rest))
        rw [hsplit] at hpiece ⊢
        exact hpiece

/-- What follows the prefix keeps the segments behind it. -/
theorem plain_drop_entryPrefix {name : Text} (hsafe : isSafeSessionPackageEntryName name = true)
    (hstart : kSessionProtocolEntryPrefix <+: name) :
    colon ∉ name.drop kSessionProtocolEntryPrefix.length ∧
      ∀ piece ∈ (name.drop kSessionProtocolEntryPrefix.length).splitOnP
        Convention.windows.isSeparator, Plain piece := by
  obtain ⟨relative, rfl⟩ := hstart
  obtain ⟨hfree, hpieces⟩ := plain_of_isSafe hsafe
  rw [List.drop_left]
  refine ⟨fun hmem => hfree (List.mem_append_right _ hmem), fun piece hpiece => hpieces piece ?_⟩
  have hshape : kSessionProtocolEntryPrefix ++ relative = text "protocol" ++ slash :: relative := by
    have hcut : kSessionProtocolEntryPrefix = text "protocol" ++ [slash] := by decide
    rw [hcut, List.append_assoc]
    rfl
  rw [hshape, List.splitOnP_append_cons _ _ (by decide)]
  exact List.mem_append_right _ hpiece

/-- **A safe protocol entry is written strictly below the target directory**, on both path
conventions, and what follows its prefix is neither absolute nor relative to a drive. -/
theorem safe_entry_stays_inside (convention : Convention) (protocolDir : FilePath) (name : Text)
    (hsafe : isSafeSessionPackageEntryName name = true)
    (hstart : kSessionProtocolEntryPrefix <+: name) :
    (parse convention (name.drop kSessionProtocolEntryPrefix.length)).rootName = [] ∧
      (parse convention (name.drop kSessionProtocolEntryPrefix.length)).hasRootDirectory = false ∧
      FilePath.StrictlyInside protocolDir (entryOutputPath convention protocolDir name) := by
  obtain ⟨hfree, hpieces⟩ := plain_drop_entryPrefix hsafe hstart
  have hplain := plain_splitOnP convention hpieces
  rw [entryOutputPath, parse_of_plain convention hfree hplain]
  exact ⟨rfl, rfl, FilePath.strictlyInside_append convention protocolDir rfl rfl
    (List.splitOnP_ne_nil _ _) hplain⟩

/-- A backslash inside the name separates under one convention only. -/
theorem safe_entry_stays_inside_nested :
    FilePath.StrictlyInside { hasRootDirectory := true, components := [text "tmp", text "p"] }
      (entryOutputPath .windows
        { hasRootDirectory := true, components := [text "tmp", text "p"] }
        (text "protocol/lib\\main.lua")) :=
  (safe_entry_stays_inside .windows { hasRootDirectory := true, components := [text "tmp", text "p"] }
    (text "protocol/lib\\main.lua") (by decide) (by decide)).2.2

/-! ### Importing the protocol of a package -/

section Import

variable {convention : Convention} {writeFileBytes : FilePath → List UInt8 → Option Text}
  {directory : FilePath} {package : SessionPackageData}

/-- The paths of the protocol's entries, in the order of the package. -/
def protocolPaths (convention : Convention) (directory : FilePath) (package : SessionPackageData) :
    List FilePath :=
  (collectSessionProtocolEntries package).map fun entry =>
    entryOutputPath convention directory entry.name

/-- Releasing stops at the first entry that cannot be written. -/
theorem releaseSessionProtocolEntries_spec (entries : List SessionPackageEntry) :
    let released := releaseSessionProtocolEntries convention writeFileBytes directory entries
    let paths := entries.map fun entry => entryOutputPath convention directory entry.name
    released.1 <+: paths ∧ (released.2 = none → released.1 = paths) := by
  induction entries with
  | nil => exact ⟨List.prefix_rfl, fun _ => rfl⟩
  | cons entry entries ih =>
    dsimp only [releaseSessionProtocolEntries]
    split
    · exact ⟨⟨_, rfl⟩, fun h => by cases h⟩
    · exact ⟨(List.prefix_cons_inj _).mpr ih.1, fun h => congrArg (_ :: ·) (ih.2 h)⟩

theorem safe_of_validate (h : validateSessionPackageEntries package = none) :
    ∀ entry ∈ package.entries, isSafeSessionPackageEntryName entry.name = true := by
  intro entry hentry
  have hnone := List.find?_eq_none.mp (Option.map_eq_none_iff.mp h) entry hentry
  simpa using hnone

theorem protocolPaths_inside
    (h : ∀ entry ∈ package.entries, isSafeSessionPackageEntryName entry.name = true) :
    ∀ path ∈ protocolPaths convention directory package, directory.StrictlyInside path := by
  intro path hpath
  obtain ⟨entry, hentry, rfl⟩ := List.mem_map.mp hpath
  obtain ⟨hmem, hstart⟩ := List.mem_filter.mp hentry
  obtain ⟨hfree, hpieces⟩ :=
    plain_drop_entryPrefix (h entry hmem) (List.isPrefixOf_iff_prefix.mp hstart)
  have hplain := plain_splitOnP convention hpieces
  rw [entryOutputPath, parse_of_plain convention hfree hplain]
  exact FilePath.strictlyInside_append convention directory rfl rfl (List.splitOnP_ne_nil _ _)
    hplain

/-- What an import leaves: the paths it has written, and the directory it selects. -/
structure ImportedInside (convention : Convention) (directory : FilePath)
    (package : SessionPackageData) (imported : List FilePath × Except Text (Option FilePath)) :
    Prop where
  inside : ∀ path ∈ imported.1, directory.StrictlyInside path
  ordered : imported.1 <+: protocolPaths convention directory package
  safe : imported.1 ≠ [] →
    ∀ entry ∈ package.entries, isSafeSessionPackageEntryName entry.name = true
  complete : ∀ selected, imported.2 = .ok (some selected) → selected = directory ∧
    imported.1 = protocolPaths convention directory package ∧
    entryOutputPath convention directory (text "protocol/main.lua") ∈ imported.1

theorem ImportedInside.nothing {result : Except Text (Option FilePath)}
    (h : ∀ selected, result ≠ .ok (some selected)) :
    ImportedInside convention directory package ([], result) where
  inside := fun _ hpath => absurd hpath List.not_mem_nil
  ordered := List.nil_prefix
  safe := fun hne => absurd rfl hne
  complete := fun selected hselected => absurd hselected (h selected)

/-- **What an import writes of a package stays in the directory made for it**, whatever the
package is called and whatever write fails: strictly inside, entry by entry in their order up to
the first that cannot be written, and nothing for a package with an unsafe name.  A directory is
selected only when all entries are there, the script among them. -/
theorem import_stays_inside (convention : Convention)
    (writeFileBytes : FilePath → List UInt8 → Option Text) (useCurrent : Bool)
    (directory : FilePath) (package : SessionPackageData) :
    ImportedInside convention directory package
      (importSessionProtocol convention writeFileBytes useCurrent directory package) := by
  unfold importSessionProtocol selectSessionImportProtocol
  split
  · exact .nothing fun _ h => by cases h
  rename_i hvalid
  have hsafe := safe_of_validate hvalid
  have hinside := @protocolPaths_inside convention directory package hsafe
  dsimp only
  split
  · exact .nothing fun _ h => by cases h
  split
  · exact .nothing fun _ h => by cases h
  rename_i hscript
  obtain ⟨hwritten, hall⟩ := @releaseSessionProtocolEntries_spec convention writeFileBytes
    directory (collectSessionProtocolEntries package)
  refine ⟨fun path hpath => hinside path (hwritten.subset hpath), hwritten, fun _ => hsafe, ?_⟩
  intro selected hselected
  split at hselected
  · cases hselected
  rename_i hnone
  cases hselected
  have hpaths := hall hnone
  refine ⟨rfl, hpaths, ?_⟩
  rw [Bool.not_eq_true, Bool.not_eq_false', List.any_eq_true] at hscript
  obtain ⟨entry, hentry, hname⟩ := hscript
  dsimp only
  rw [hpaths, ← eq_of_beq hname]
  exact List.mem_map_of_mem hentry

end Import

end ProtoScope.App
