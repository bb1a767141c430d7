/-
What a retention run takes away.

Whatever stops the run, an error or a crash between two steps, a pinned volume is untouched,
unless its retirement had begun before.  A run that ends has gone through the volumes from
the oldest on and retired those that were expired, or met while the directory was too large,
and not pinned.  So if the directory is too large at the end, only pinned volumes are left.
-/
import Mathlib.Data.List.Nodup
import ProtoScope.Proofs.Storage.Retirement

namespace ProtoScope.Storage

open ProtoScope.Data ProtoScope.Library Triple

/-- Ids and identities name one volume each, as the keys of the index demand. -/
structure Catalog.Keyed (catalog : Catalog) : Prop where
  ids : (catalog.volumes.map (·.id)).Nodup
  identities : (catalog.volumes.map (·.identity)).Nodup

theorem Catalog.Keyed.identity_ne {catalog : Catalog} (h : catalog.Keyed) {a b : VolumeEntry}
    (ha : a ∈ catalog.volumes) (hb : b ∈ catalog.volumes) (hne : a.id ≠ b.id) :
    a.identity ≠ b.identity := by
  intro hsame
  exact hne (congrArg VolumeEntry.id (List.inj_on_of_nodup_map h.identities ha hb hsame))

namespace VolumeCatalog

/-! ### What is kept -/

/-- These volumes are catalogued and not to be retired, and their directories are as in `d`. -/
def Keeps (kept : List VolumeEntry) (d s : RecordDirectory) : Prop :=
  ∃ catalog, s.index = .holds catalog ∧ ∀ entry ∈ kept,
    entry ∈ catalog.volumes ∧ isRetiring catalog entry.id = false ∧
      s.volumes entry.identity = d.volumes entry.identity

/-- None of these volumes has this id or this identity. -/
def Spares (kept : List VolumeEntry) (id : ℕ) (identity : String) : Prop :=
  ∀ entry ∈ kept, entry.id ≠ id ∧ entry.identity ≠ identity

variable {kept : List VolumeEntry} {d d₀ s : RecordDirectory} {catalog : Catalog} {id : ℕ}
  {identity : String}

theorem Keeps.withVolume (h : Keeps kept d₀ s) (hspares : Spares kept id identity)
    (directory : Option VolumeDirectory) : Keeps kept d₀ (s.withVolume identity directory) := by
  obtain ⟨catalog, hindex, hkept⟩ := h
  refine ⟨catalog, hindex, fun entry hentry => ?_⟩
  obtain ⟨hmem, hfree, hsame⟩ := hkept entry hentry
  exact ⟨hmem, hfree, (withVolume_other (hspares entry hentry).2 directory).trans hsame⟩

theorem Keeps.withIndex {next : Catalog} (h : Keeps kept d₀ s) (hindex : s.index = .holds catalog)
    (hvolumes : ∀ entry ∈ kept, entry ∈ catalog.volumes → entry ∈ next.volumes)
    (hretiring : ∀ entry ∈ kept, isRetiring catalog entry.id = false →
      isRetiring next entry.id = false) : Keeps kept d₀ (s.withIndex next) := by
  obtain ⟨catalog', hindex', hkept⟩ := h
  obtain rfl : catalog = catalog' := by
    rw [hindex] at hindex'
    injection hindex'
  refine ⟨next, rfl, fun entry hentry => ?_⟩
  obtain ⟨hmem, hfree, hsame⟩ := hkept entry hentry
  exact ⟨hvolumes entry hentry hmem, hretiring entry hentry hfree, hsame⟩

theorem isRetiring_withoutVolume {other : ℕ} (h : isRetiring catalog other = false) :
    isRetiring (withoutVolume catalog id identity) other = false := by
  unfold isRetiring withoutVolume at *
  rw [List.any_eq_false] at h ⊢
  intro intent hintent
  exact h intent (List.mem_filter.mp hintent).1

theorem mem_withoutVolume {entry : VolumeEntry} (h : entry ∈ catalog.volumes)
    (hne : entry.id ≠ id) : entry ∈ (withoutVolume catalog id identity).volumes := by
  refine List.mem_filter.mpr ⟨h, ?_⟩
  simp [hne]

theorem Keeps.withoutVolume (h : Keeps kept d₀ s) (hindex : s.index = .holds catalog)
    (hspares : Spares kept id identity) :
    Keeps kept d₀ (s.withIndex (withoutVolume catalog id identity)) :=
  h.withIndex hindex (fun entry hentry hmem => mem_withoutVolume hmem (hspares entry hentry).1)
    fun _ _ hfree => isRetiring_withoutVolume hfree

/-! ### Retirements one after the other -/

/-- The catalog and the directory after these volumes are retired. -/
def retired (catalog : Catalog) (d : RecordDirectory) :
    List (ℕ × String) → Catalog × RecordDirectory
  | [] => (catalog, d)
  | (id, identity) :: rest =>
    retired (withoutVolume catalog id identity)
      ((d.withVolume identity none).withIndex (withoutVolume catalog id identity)) rest

theorem retired_index (keys : List (ℕ × String)) (hindex : d.index = .holds catalog) :
    (retired catalog d keys).2.index = .holds (retired catalog d keys).1 := by
  induction keys generalizing catalog d with
  | nil => exact hindex
  | cons key keys ih => exact ih rfl

theorem retired_append (first second : List (ℕ × String)) :
    retired catalog d (first ++ second) =
      retired (retired catalog d first).1 (retired catalog d first).2 second := by
  induction first generalizing catalog d with
  | nil => rfl
  | cons key first ih => exact ih

theorem retired_volumes {keys : List (ℕ × String)} {entry : VolumeEntry} :
    entry ∈ (retired catalog d keys).1.volumes ↔
      entry ∈ catalog.volumes ∧ (entry.id, entry.identity) ∉ keys := by
  induction keys generalizing catalog d with
  | nil => simp [retired]
  | cons key keys ih =>
    rw [retired, ih]
    unfold VolumeCatalog.withoutVolume
    simp only [List.mem_filter, List.mem_cons, Prod.ext_iff]
    simp only [Bool.not_eq_true', Bool.and_eq_false_iff, beq_eq_false_iff_ne]
    tauto

theorem isRetiring_retired {keys : List (ℕ × String)} {other : ℕ}
    (h : isRetiring catalog other = false) :
    isRetiring (retired catalog d keys).1 other = false := by
  induction keys generalizing catalog d with
  | nil => exact h
  | cons key keys ih => exact ih (isRetiring_withoutVolume h)

section Specs

variable {μ : Type} {m : μ} (root : RecordRoot)

/-- Any history. -/
def anyHistory : List Step → RecordDirectory → Prop := fun _ _ => True

theorem anyHistory_passive : Passive anyHistory := fun _ _ _ _ _ => trivial

theorem left_iff {h : List Step} : Left anyHistory d h s ↔ s = d :=
  ⟨fun hs => hs.2, fun hs => ⟨trivial, hs⟩⟩

theorem finishRetirement_keeps (hindex : d.index = .holds catalog) (hkeeps : Keeps kept d₀ d)
    (hspares : Spares kept id identity) (count : ℕ) :
    Triple (At anyHistory m d) (finishRetirement root id identity count)
      (fun _ s => Keeps kept d₀ s)
      (fun _ => At anyHistory m (retired catalog d [(id, identity)]).2)
      (fun _ _ _ s => Keeps kept d₀ s) := by
  apply (finishRetirement_spec anyHistory_passive hindex root id count).conseq
    (fun h m' s hs => hs)
  · rintro h s (⟨directory, emptied, -, -, -, hs⟩ | hs | hs)
    · rw [left_iff.mp hs]
      exact hkeeps.withVolume hspares _
    · rw [left_iff.mp hs]
      exact hkeeps.withVolume hspares _
    · rw [left_iff.mp hs]
      exact (hkeeps.withVolume hspares none).withoutVolume hindex hspares
  · exact fun _ h m' s hs => hs
  · rintro _ h m' s ⟨hs, -⟩
    rw [hs.directory]
    exact hkeeps

def key (entry : VolumeEntry) : ℕ × String := (entry.id, entry.identity)

theorem retired_keeps {keys : List (ℕ × String)} (hindex : d.index = .holds catalog)
    (hkeeps : Keeps kept d₀ d) (hspares : ∀ key ∈ keys, Spares kept key.1 key.2) :
    Keeps kept d₀ (retired catalog d keys).2 := by
  induction keys generalizing catalog d with
  | nil => exact hkeeps
  | cons key keys ih =>
    have hkey := hspares key List.mem_cons_self
    exact ih rfl ((hkeeps.withVolume hkey none).withoutVolume hindex hkey)
      fun key' hkey' => hspares key' (List.mem_cons_of_mem _ hkey')

theorem finishRetirements_keeps (entries : List VolumeEntry) (hindex : d.index = .holds catalog)
    (hkeeps : Keeps kept d₀ d)
    (hspares : ∀ entry ∈ entries, Spares kept entry.id entry.identity) :
    Triple (At anyHistory m d) (finishRetirements root entries)
      (fun _ s => Keeps kept d₀ s)
      (fun _ => At anyHistory m (retired catalog d (entries.map key)).2)
      (fun _ _ _ s => Keeps kept d₀ s) := by
  induction entries generalizing catalog d with
  | nil => exact Triple.pure fun h m' s hs => hs
  | cons entry entries ih =>
    have hentry := hspares entry List.mem_cons_self
    unfold finishRetirements
    apply (finishRetirement_keeps root hindex hkeeps hentry entry.records).bind
    intro _
    exact ih rfl ((hkeeps.withVolume hentry none).withoutVolume hindex hentry)
      fun other hother => hspares other (List.mem_cons_of_mem _ hother)

/-- A volume is checked, marked and retired. -/
theorem retire_keeps (run : RetentionRun) (volume : CatalogVolume)
    (hindex : d.index = .holds catalog) (hkeeps : Keeps kept d₀ d)
    (hspares : Spares kept volume.id volume.identity) :
    Triple (At anyHistory m d) (retire root run volume)
      (fun _ s => Keeps kept d₀ s)
      (fun _ => At anyHistory m (retired catalog d [(volume.id, volume.identity)]).2)
      (fun _ _ _ s => Keeps kept d₀ s) := by
  have hstay : ∀ h (m' : μ) s, At anyHistory m d h m' s → Keeps kept d₀ s := by
    intro h m' s hs
    rw [hs.directory]
    exact hkeeps
  unfold retire
  apply durable_then (fun h m' s hs => hs.directory)
  apply ofExcept_then (fun _ _ => hstay)
  intro _ _
  apply failIf_then (fun _ => hstay)
  intro _
  rw [catalog_of_index hindex]
  apply ofExcept_then (fun _ _ => hstay)
  intro c hc
  cases hc
  apply failIf_then (fun _ => hstay)
  intro hnew
  have hmarked : Keeps kept d₀ (d.withIndex
      { catalog with retiring := catalog.retiring ++ [(volume.id, volume.identity)] }) := by
    refine hkeeps.withIndex hindex (fun _ _ hmem => hmem) fun entry hentry hfree => ?_
    unfold isRetiring at hfree ⊢
    rw [List.any_append, hfree]
    simp [Ne.symm (hspares entry hentry).1]
  apply write_then (q := At anyHistory m (d.withIndex
    { catalog with retiring := catalog.retiring ++ [(volume.id, volume.identity)] }))
  · intro h m' s hs
    rw [hs.directory]
    exact hmarked
  · rintro h m' s ⟨-, rfl, rfl⟩
    exact ⟨trivial, rfl, rfl⟩
  apply (finishRetirement_keeps root rfl hmarked hspares volume.records).conseq
    (fun h m' s hs => hs) (fun h s hs => hs)
  · intro _ h m' s hs
    have hwithout : withoutVolume
        { catalog with retiring := catalog.retiring ++ [(volume.id, volume.identity)] } volume.id
        volume.identity = withoutVolume catalog volume.id volume.identity := by
      unfold withoutVolume
      simp
    have hsame : (retired
        { catalog with retiring := catalog.retiring ++ [(volume.id, volume.identity)] }
        (d.withIndex
          { catalog with retiring := catalog.retiring ++ [(volume.id, volume.identity)] })
        [(volume.id, volume.identity)]).2 =
        (retired catalog d [(volume.id, volume.identity)]).2 := by
      unfold retired
      rw [hwithout]
      rfl
    rw [hsame] at hs
    exact hs
  · exact fun _ h m' s hs => hs

end Specs

/-! ### The loop -/

def volumeKey (volume : CatalogVolume) : ℕ × String := (volume.id, volume.identity)

/-- The run goes through the volumes and takes some of them away, while the directory measures
so many bytes, and so many at the end. -/
inductive Retains (policy : RetentionPolicy) (nowUs : ℤ) (run : RetentionRun) :
    Catalog → RecordDirectory → ℕ → List CatalogVolume → List CatalogVolume → ℕ → Prop
  | nil {catalog d bytes} : Retains policy nowUs run catalog d bytes [] [] bytes
  | keep {catalog d bytes volume volumes removed last}
      (hage : isExpired policy nowUs volume = false) (hbytes : bytes ≤ policy.maxBytes)
      (rest : Retains policy nowUs run catalog d bytes volumes removed last) :
      Retains policy nowUs run catalog d bytes (volume :: volumes) removed last
  | pinned {catalog d bytes volume volumes removed last} (hpinned : run.pinned volume.id = true)
      (rest : Retains policy nowUs run catalog d bytes volumes removed last) :
      Retains policy nowUs run catalog d bytes (volume :: volumes) removed last
  | retire {catalog d bytes bytes' volume volumes removed last}
      (hdue : isExpired policy nowUs volume = true ∨ policy.maxBytes < bytes)
      (hfree : run.pinned volume.id = false)
      (hbytes : run.directoryBytes (retired catalog d [volumeKey volume]).2 = .ok bytes')
      (rest : Retains policy nowUs run (retired catalog d [volumeKey volume]).1
        (retired catalog d [volumeKey volume]).2 bytes' volumes removed last) :
      Retains policy nowUs run catalog d bytes (volume :: volumes) (volume :: removed) last

section Loop

variable {policy : RetentionPolicy} {nowUs : ℤ} {run : RetentionRun} {bytes last : ℕ}
  {volumes removed : List CatalogVolume}

/-- The oldest go first: what is taken away is taken in the order of the volumes. -/
theorem Retains.sublist (h : Retains policy nowUs run catalog d bytes volumes removed last) :
    removed.Sublist volumes := by
  induction h with
  | nil => exact List.Sublist.refl []
  | keep _ _ _ ih => exact ih.cons _
  | pinned _ _ ih => exact ih.cons _
  | retire _ _ _ _ ih => exact ih.cons_cons _

/-- A volume is taken away if it is free, and expired or met while the directory was too
large. -/
theorem Retains.due (h : Retains policy nowUs run catalog d bytes volumes removed last)
    (hbytes : run.directoryBytes d = .ok bytes) :
    ∀ before volume after, removed = before ++ volume :: after →
      run.pinned volume.id = false ∧ (isExpired policy nowUs volume = true ∨
        ∃ total, run.directoryBytes (retired catalog d (before.map volumeKey)).2 = .ok total ∧
          policy.maxBytes < total) := by
  induction h with
  | nil =>
    intro before volume after hsplit
    simp at hsplit
  | keep _ _ _ ih => exact ih hbytes
  | pinned _ _ ih => exact ih hbytes
  | retire hdue hfree hmeasured _ ih =>
    intro before volume after hsplit
    cases before with
    | nil =>
      injection hsplit with hvolume _
      subst hvolume
      refine ⟨hfree, hdue.imp_right fun hover => ⟨_, hbytes, hover⟩⟩
    | cons first before =>
      injection hsplit with hfirst hrest
      subst hfirst
      exact ih hmeasured before volume after hrest

/-- The last measure is that of the directory at the end. -/
theorem Retains.measured (h : Retains policy nowUs run catalog d bytes volumes removed last)
    (hbytes : run.directoryBytes d = .ok bytes) :
    run.directoryBytes (retired catalog d (removed.map volumeKey)).2 = .ok last := by
  induction h with
  | nil => exact hbytes
  | keep _ _ _ ih => exact ih hbytes
  | pinned _ _ ih => exact ih hbytes
  | retire _ _ hmeasured _ ih => exact ih hmeasured

/-- Taking a volume away does not make the directory larger. -/
def Shrinks (run : RetentionRun) : Prop :=
  ∀ catalog d key bytes bytes', run.directoryBytes d = .ok bytes →
    run.directoryBytes (retired catalog d [key]).2 = .ok bytes' → bytes' ≤ bytes

/-- Where the directory is too large at the end, it was so all the time, and no volume that is
free is left. -/
theorem Retains.left (h : Retains policy nowUs run catalog d bytes volumes removed last)
    (hshrinks : Shrinks run) (hbytes : run.directoryBytes d = .ok bytes)
    (hover : policy.maxBytes < last) :
    last ≤ bytes ∧ ∀ volume ∈ volumes, volume ∈ removed ∨ run.pinned volume.id = true := by
  induction h with
  | nil => exact ⟨Nat.le_refl _, fun volume hmem => (List.not_mem_nil hmem).elim⟩
  | keep hage hunder _ ih =>
    obtain ⟨hle, -⟩ := ih hbytes hover
    exact absurd (Nat.lt_of_lt_of_le hover hle) (Nat.not_lt.mpr hunder)
  | pinned hpinned _ ih =>
    obtain ⟨hle, hleft⟩ := ih hbytes hover
    refine ⟨hle, fun volume hmem => ?_⟩
    rcases List.mem_cons.mp hmem with rfl | hmem
    · exact Or.inr hpinned
    · exact hleft volume hmem
  | retire hdue hfree hmeasured _ ih =>
    obtain ⟨hle, hleft⟩ := ih hmeasured hover
    refine ⟨Nat.le_trans hle (hshrinks _ _ _ _ _ hbytes hmeasured), fun volume hmem => ?_⟩
    rcases List.mem_cons.mp hmem with rfl | hmem
    · exact Or.inl List.mem_cons_self
    · exact (hleft volume hmem).imp_left (List.mem_cons_of_mem _)

theorem retainEach_spec {μ : Type} {m : μ} (root : RecordRoot) (policy : RetentionPolicy)
    (nowUs : ℤ) (run : RetentionRun) (volumes : List CatalogVolume) (result : RetentionResult)
    (hindex : d.index = .holds catalog) (hkeeps : Keeps kept d₀ d)
    (hspares : ∀ volume ∈ volumes, run.pinned volume.id = false →
      Spares kept volume.id volume.identity) :
    Triple (At anyHistory m d) (retainEach root policy nowUs run result volumes)
      (fun _ s => Keeps kept d₀ s)
      (fun result' _ _ s => ∃ removed,
        Retains policy nowUs run catalog d result.bytes volumes removed result'.bytes ∧
          s = (retired catalog d (removed.map volumeKey)).2 ∧
          result'.removedVolumes = result.removedVolumes + removed.length)
      (fun _ _ _ s => Keeps kept d₀ s) := by
  induction volumes generalizing catalog d result with
  | nil =>
    apply Triple.pure
    intro h m' s hs
    exact ⟨[], .nil, hs.directory, rfl⟩
  | cons volume volumes ih =>
    have hstay : ∀ h (m' : μ) s, At anyHistory m d h m' s → Keeps kept d₀ s := by
      intro h m' s hs
      rw [hs.directory]
      exact hkeeps
    have hrest : ∀ other ∈ volumes, run.pinned other.id = false →
        Spares kept other.id other.identity :=
      fun other hother => hspares other (List.mem_cons_of_mem _ hother)
    rw [retainEach]
    apply failIf_then (fun _ => hstay)
    intro _
    by_cases hunder : (!isExpired policy nowUs volume && decide (result.bytes ≤ policy.maxBytes)) =
        true
    · rw [if_pos hunder]
      rw [Bool.and_eq_true, Bool.not_eq_true', decide_eq_true_eq] at hunder
      apply (ih result hindex hkeeps hrest).conseq (fun h m' s hs => hs) (fun h s hs => hs)
      · rintro result' h m' s ⟨removed, hretains, hs, hcount⟩
        exact ⟨removed, .keep hunder.1 hunder.2 hretains, hs, hcount⟩
      · exact fun _ h m' s hs => hs
    · rw [if_neg hunder]
      rw [Bool.and_eq_true, Bool.not_eq_true', decide_eq_true_eq, not_and_or, Bool.not_eq_false,
        Nat.not_le] at hunder
      by_cases hpinned : run.pinned volume.id = true
      · rw [if_pos hpinned]
        apply (ih _ hindex hkeeps hrest).conseq (fun h m' s hs => hs) (fun h s hs => hs)
        · rintro result' h m' s ⟨removed, hretains, hs, hcount⟩
          exact ⟨removed, .pinned hpinned hretains, hs, hcount⟩
        · exact fun _ h m' s hs => hs
      · rw [if_neg hpinned]
        rw [Bool.not_eq_true] at hpinned
        have hvolume := hspares volume List.mem_cons_self hpinned
        have hkeeps' : Keeps kept d₀ (retired catalog d [volumeKey volume]).2 := by
          refine retired_keeps hindex hkeeps fun key hkey => ?_
          rw [List.mem_singleton.mp hkey]
          exact hvolume
        apply (retire_keeps root run volume hindex hkeeps hvolume).bind
        intro _
        apply durable_then (fun h m' s hs => hs.directory)
        apply ofExcept_then
        · intro e _ h m' s hs
          rw [hs.directory]
          exact hkeeps'
        intro bytes' hmeasured
        apply (ih _ (retired_index [volumeKey volume] hindex) hkeeps' hrest).conseq
          (fun h m' s hs => hs) (fun h s hs => hs)
        · rintro result' h m' s ⟨removed, hretains, hs, hcount⟩
          refine ⟨volume :: removed, .retire hunder hpinned hmeasured hretains, ?_, ?_⟩
          · rw [hs]
            rfl
          · dsimp only at hcount
            rw [hcount, List.length_cons]
            omega
        · exact fun _ h m' s hs => hs

end Loop

/-! ### The whole run -/

theorem sealedBefore_trans (a b c : CatalogVolume) (hab : sealedBefore a b = true)
    (hbc : sealedBefore b c = true) : sealedBefore a c = true := by
  unfold sealedBefore at *
  split at hab <;> split at hbc <;> split <;> simp only [decide_eq_true_eq] at * <;> omega

theorem sealedBefore_total (a b : CatalogVolume) :
    (sealedBefore a b || sealedBefore b a) = true := by
  unfold sealedBefore
  split <;> split <;> simp only [Bool.or_eq_true, decide_eq_true_eq] <;> omega

/-- The volumes whose retirement has begun. -/
def begun (catalog : Catalog) : List VolumeEntry :=
  catalog.volumes.filter fun entry => isRetiring catalog entry.id

theorem pendingRetirements_eq_ok {pending : List VolumeEntry}
    (h : pendingRetirements catalog = .ok pending) : pending = begun catalog := by
  unfold pendingRetirements at h
  dsimp only at h
  unfold invalid at h
  split at h
  · cases h
  · rw [ok_bind] at h
    split at h
    · cases h
    · cases h
      rfl

/-- The pinned volumes among the others. -/
def pinnedVolumes (catalog : Catalog) (run : RetentionRun) : List VolumeEntry :=
  catalog.volumes.filter fun entry => run.pinned entry.id && !isRetiring catalog entry.id

/-- What a run that ends has done: after the retirements that had begun, `removed` were taken
away of the volumes, the oldest first. -/
structure Retained (policy : RetentionPolicy) (nowUs : ℤ) (run : RetentionRun) (catalog : Catalog)
    (d : RecordDirectory) (result : RetentionResult) (s : RecordDirectory)
    (volumes removed : List CatalogVolume) : Prop where
  handed : volumes.Perm ((retired catalog d ((begun catalog).map key)).1.volumes.map
    (catalogVolume (retired catalog d ((begun catalog).map key)).1))
  oldest : volumes.Pairwise fun a b => sealedBefore a b = true
  order : removed.Sublist volumes
  count : result.removedVolumes = removed.length
  directory : s = (retired catalog d ((begun catalog).map key ++ removed.map volumeKey)).2
  due : ∀ before volume after, removed = before ++ volume :: after →
    run.pinned volume.id = false ∧ (isExpired policy nowUs volume = true ∨
      ∃ total, run.directoryBytes (retired catalog d
        ((begun catalog).map key ++ before.map volumeKey)).2 = .ok total ∧ policy.maxBytes < total)
  total : ∃ total, run.directoryBytes s = .ok total ∧
    (result.capacityExceeded = true ↔ policy.maxBytes < total)
  left : Shrinks run → result.capacityExceeded = true →
    ∀ volume ∈ volumes, volume ∈ removed ∨ run.pinned volume.id = true

section Run

variable {policy : RetentionPolicy} {nowUs : ℤ} {run : RetentionRun}

theorem pinnedVolumes_spares (hkeyed : catalog.Keyed) {entry : VolumeEntry}
    (hentry : entry ∈ catalog.volumes)
    (hother : run.pinned entry.id = false ∨ isRetiring catalog entry.id = true) :
    Spares (pinnedVolumes catalog run) entry.id entry.identity := by
  intro pinned hpinned
  obtain ⟨hmem, hkept⟩ := List.mem_filter.mp hpinned
  rw [Bool.and_eq_true, Bool.not_eq_true'] at hkept
  have hne : pinned.id ≠ entry.id := by
    intro hsame
    rw [hsame] at hkept
    rcases hother with hfree | hretiring
    · exact absurd (hfree.symm.trans hkept.1) (by decide)
    · exact absurd (hkept.2.symm.trans hretiring) (by decide)
  exact ⟨hne, hkeyed.identity_ne hmem hentry hne⟩

theorem pinnedVolumes_keeps (hindex : d.index = .holds catalog) :
    Keeps (pinnedVolumes catalog run) d d := by
  refine ⟨catalog, hindex, fun entry hentry => ?_⟩
  obtain ⟨hmem, hkept⟩ := List.mem_filter.mp hentry
  rw [Bool.and_eq_true, Bool.not_eq_true'] at hkept
  exact ⟨hmem, hkept.2, rfl⟩

/-- Once the retirements that had begun are over, none is left. -/
theorem begun_retired {entry : VolumeEntry}
    (h : entry ∈ (retired catalog d ((begun catalog).map key)).1.volumes) :
    entry ∈ catalog.volumes ∧ isRetiring (retired catalog d ((begun catalog).map key)).1
      entry.id = false := by
  obtain ⟨hmem, hnot⟩ := retired_volumes.mp h
  refine ⟨hmem, isRetiring_retired ?_⟩
  cases hretiring : isRetiring catalog entry.id with
  | false => rfl
  | true =>
    exact absurd (List.mem_map.mpr ⟨entry, List.mem_filter.mpr ⟨hmem, hretiring⟩, rfl⟩) hnot

theorem retain_spec {μ : Type} {m : μ} (root : RecordRoot) (policy : RetentionPolicy)
    (nowUs : ℤ) (run : RetentionRun) (hindex : d.index = .holds catalog) (hkeyed : catalog.Keyed) :
    Triple (At anyHistory m d) (retain root policy nowUs run)
      (fun _ s => Keeps (pinnedVolumes catalog run) d s)
      (fun result _ _ s => ∃ volumes removed,
        Retained policy nowUs run catalog d result s volumes removed)
      (fun _ _ _ s => Keeps (pinnedVolumes catalog run) d s) := by
  have hkeeps : Keeps (pinnedVolumes catalog run) d d := pinnedVolumes_keeps hindex
  have hstay : ∀ h (m' : μ) s, At anyHistory m d h m' s →
      Keeps (pinnedVolumes catalog run) d s := by
    intro h m' s hs
    rw [hs.directory]
    exact hkeeps
  have hbegun : ∀ entry ∈ begun catalog,
      Spares (pinnedVolumes catalog run) entry.id entry.identity := by
    intro entry hentry
    obtain ⟨hmem, hretiring⟩ := List.mem_filter.mp hentry
    exact pinnedVolumes_spares hkeyed hmem (Or.inr hretiring)
  unfold retain
  apply failIf_then (fun _ => hstay)
  intro _
  apply bind (q := fun _ => At anyHistory m
    (retired catalog d ((begun catalog).map key)).2)
  · unfold resumeRetirements
    apply durable_then (fun h m' s hs => hs.directory)
    rw [catalog_of_index hindex]
    apply ofExcept_then (fun _ _ => hstay)
    intro c hc
    cases hc
    apply ofExcept_then (fun _ _ => hstay)
    intro pending hpending
    rw [pendingRetirements_eq_ok hpending]
    exact finishRetirements_keeps root _ hindex hkeeps hbegun
  intro _
  have hkeeps' : Keeps (pinnedVolumes catalog run) d
      (retired catalog d ((begun catalog).map key)).2 := by
    refine retired_keeps hindex hkeeps fun key' hkey => ?_
    obtain ⟨entry, hentry, rfl⟩ := List.mem_map.mp hkey
    exact hbegun entry hentry
  have hindex' := retired_index ((begun catalog).map key) hindex
  have hleft : ∀ entry ∈ (retired catalog d ((begun catalog).map key)).1.volumes,
      entry ∈ catalog.volumes ∧
        isRetiring (retired catalog d ((begun catalog).map key)).1 entry.id = false :=
    fun entry hentry => begun_retired hentry
  have happend : ∀ keys : List (ℕ × String),
      (retired catalog d ((begun catalog).map key ++ keys)).2 =
        (retired (retired catalog d ((begun catalog).map key)).1
          (retired catalog d ((begun catalog).map key)).2 keys).2 :=
    fun keys => congrArg Prod.snd (retired_append _ _)
  have hstay' : ∀ h (m' : μ) s, At anyHistory m
      (retired catalog d ((begun catalog).map key)).2 h m' s →
      Keeps (pinnedVolumes catalog run) d s := by
    intro h m' s hs
    rw [hs.directory]
    exact hkeeps'
  apply durable_then (fun h m' s hs => hs.directory)
  rw [catalog_of_index hindex']
  apply ofExcept_then (fun _ _ => hstay')
  intro c hc
  cases hc
  apply ofExcept_then (fun _ _ => hstay')
  intro handed hhanded
  have hall := volumes_eq_ok hhanded
  have hfilter : ((retired catalog d ((begun catalog).map key)).1.volumes.filter fun entry =>
      !isRetiring (retired catalog d ((begun catalog).map key)).1 entry.id) =
      (retired catalog d ((begun catalog).map key)).1.volumes := by
    rw [List.filter_eq_self]
    intro entry hentry
    rw [(hleft entry hentry).2]
    rfl
  rw [hfilter] at hall
  apply ofExcept_then (fun _ _ => hstay')
  intro bytes hbytes
  apply bind (retainEach_spec root policy nowUs run (handed.mergeSort sealedBefore)
    { bytes := bytes } hindex' hkeeps' ?_)
  · intro result
    apply Triple.pure
    rintro h m' s ⟨removed, hretains, hs, hcount⟩
    have hmeasured := hretains.measured hbytes
    refine ⟨handed.mergeSort sealedBefore, removed, ?_⟩
    exact
      { handed := hall ▸ List.mergeSort_perm handed sealedBefore
        oldest := List.pairwise_mergeSort sealedBefore_trans sealedBefore_total handed
        order := hretains.sublist
        count := by rw [hcount]; exact Nat.zero_add _
        directory := by rw [hs, happend]
        due := by
          intro before volume after hsplit
          rw [happend]
          exact hretains.due hbytes before volume after hsplit
        total := ⟨result.bytes, by rw [hs]; exact hmeasured, decide_eq_true_iff⟩
        left := by
          intro hshrinks hover
          exact (hretains.left hshrinks hbytes (of_decide_eq_true hover)).2 }
  · intro volume hvolume hfree
    rw [List.mem_mergeSort, hall] at hvolume
    obtain ⟨entry, hentry, rfl⟩ := List.mem_map.mp hvolume
    exact pinnedVolumes_spares hkeyed (hleft entry hentry).1 (Or.inl hfree)

end Run

/-- **A retention run touches no pinned volume.**  After each of its steps, hence at a crash,
and where it fails, the volumes that are pinned, and whose retirement had not begun before,
are catalogued and their directories as they were.  A run that ends has taken away, from the
oldest on, only volumes that were free, and expired or met while the directory was too large.
It reports an exceeded capacity exactly where the directory is too large at the end, and then
all volumes that are left are pinned. -/
theorem retain_spares_pinned {μ : Type} (m : μ) (root : RecordRoot) (policy : RetentionPolicy)
    (nowUs : ℤ) (run : RetentionRun) (d : RecordDirectory) (catalog : Catalog)
    (hindex : d.index = .holds catalog) (hkeyed : catalog.Keyed) :
    let outcome := retain root policy nowUs run m d
    let s := replay d outcome.steps
    (∀ steps, steps <+: outcome.steps →
        Keeps (pinnedVolumes catalog run) d (replay d steps)) ∧
      ∀ result, outcome.result = .ok result →
        ∃ volumes removed, Retained policy nowUs run catalog d result s volumes removed ∧
          (Shrinks run → (result.capacityExceeded = true ↔
            ∃ catalog' total, s.index = .holds catalog' ∧ run.directoryBytes s = .ok total ∧
              policy.maxBytes < total ∧
                ∀ entry ∈ catalog'.volumes, run.pinned entry.id = true)) := by
  intro outcome s
  obtain ⟨hsteps, hend⟩ := retain_spec root policy nowUs run hindex hkeyed [] m d
    ⟨trivial, rfl, rfl⟩
  refine ⟨fun steps hprefix => ?_, fun result hresult => ?_⟩
  · by_cases hnone : steps = []
    · rw [hnone]
      exact pinnedVolumes_keeps hindex
    · exact hsteps steps hnone hprefix
  · rw [show (retain root policy nowUs run m d).result = .ok result from hresult] at hend
    obtain ⟨volumes, removed, hretained⟩ := hend
    refine ⟨volumes, removed, hretained, fun hshrinks => ⟨fun hover => ?_, ?_⟩⟩
    · obtain ⟨total, htotal, hcapacity⟩ := hretained.total
      refine ⟨(retired catalog d ((begun catalog).map key ++ removed.map volumeKey)).1, total, ?_,
        htotal, hcapacity.mp hover, fun entry hentry => ?_⟩
      · exact (congrArg RecordDirectory.index hretained.directory).trans (retired_index _ hindex)
      · rw [retired_append] at hentry
        obtain ⟨hmem, hnot⟩ := retired_volumes.mp hentry
        have hhanded := hretained.handed.mem_iff.mpr (List.mem_map.mpr ⟨entry, hmem, rfl⟩)
        rcases hretained.left hshrinks hover _ hhanded with hremoved | hpinned
        · exact absurd (List.mem_map.mpr ⟨_, hremoved, rfl⟩) hnot
        · exact hpinned
    · rintro ⟨catalog', total, -, hmeasured, hover, -⟩
      obtain ⟨total', htotal, hcapacity⟩ := hretained.total
      obtain rfl : total = total' := Except.ok.inj (hmeasured.symm.trans htotal)
      exact hcapacity.mpr hover

/-- A directory with one sealed volume without records. -/
def oneVolumeCatalog : Catalog where
  protocol := [1]
  importNext := int64Max
  volumes :=
    [{ id := 1
       identity := "00000000000000000000000000000001"
       records := 0
       fromUs := none
       toUs := none
       sealedUs := 0
       idBase := 0 }]

def oneVolumeDirectory : RecordDirectory where
  index := .holds oneVolumeCatalog
  volumes identity :=
    if identity = "00000000000000000000000000000001" then
      some
        { owner := some (recordMarker identity)
          database := .holds
            { protocol := [1]
              volumeId := identity
              origin := .recording
              state := .sealed
              recordCount := 0
              schemas := []
              records := [] } }
    else none

/-- Ten bytes, whatever is in the directory. -/
def tenBytes (pinned : Bool) : RetentionRun where
  pinned _ := pinned
  directoryBytes _ := .ok 10
  stopped _ := false
  stoppedInCheck _ := false

/-- A pinned volume outlives a run that finds it expired and the directory too large. -/
theorem retain_spares_pinned_one :
    Keeps (pinnedVolumes oneVolumeCatalog (tenBytes true)) oneVolumeDirectory
      (replay oneVolumeDirectory
        (retain { protocol := [1], volumeMetadataBytes := 0 } { maxBytes := 1, maxAge := 0 } 5
          (tenBytes true) () oneVolumeDirectory).steps) :=
  (retain_spares_pinned () { protocol := [1], volumeMetadataBytes := 0 }
    { maxBytes := 1, maxAge := 0 } 5 (tenBytes true) oneVolumeDirectory oneVolumeCatalog rfl
    ⟨by decide, by decide⟩).1 _ (List.prefix_refl _)

/-- An expired volume is taken away though the directory is far below its limit. -/
theorem retain_takes_expired_below_limit :
    ((retain { protocol := [1], volumeMetadataBytes := 0 } { maxBytes := 1000, maxAge := 0 } 5
      (tenBytes false) () oneVolumeDirectory).result.toOption.map fun result =>
        (result.bytes, result.removedVolumes)) = some (10, 1) := by
  decide +kernel

end VolumeCatalog

end ProtoScope.Storage
