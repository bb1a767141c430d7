/-
What each call on a record directory does, by itself.

Every call starts from a directory it knows and either fails without a step or leaves the
directory in one stated way.  `Q` stands for what is known about the history; it has to
survive every step that publishes no record.
-/
import ProtoScope.Storage.VolumeAdoption

namespace ProtoScope.Storage

open ProtoScope.Data ProtoScope.Library RecordDirectory

def Step.quiet : Step → Bool
  | .appendRecords _ _ _ _ => false
  | _ => true

/-- What steps that publish nothing do not touch. -/
def Passive (Q : List Step → RecordDirectory → Prop) : Prop :=
  ∀ h s step, step.quiet = true → Q h s → Q (h ++ [step]) (Durable.apply s step)

/-- The memory is `m` and the directory `d`. -/
def At {μ : Type} (Q : List Step → RecordDirectory → Prop) (m : μ) (d : RecordDirectory) :
    List Step → μ → RecordDirectory → Prop :=
  fun h m' s => Q h s ∧ m' = m ∧ s = d

/-- The directory is `d`, whatever becomes of the memory. -/
def Left (Q : List Step → RecordDirectory → Prop) (d : RecordDirectory) :
    List Step → RecordDirectory → Prop :=
  fun h s => Q h s ∧ s = d

section Steps

variable {μ : Type} {Q : List Step → RecordDirectory → Prop} {m : μ} {d : RecordDirectory}

theorem Passive.at (hQ : Passive Q) {step : Step} (hquiet : step.quiet = true) :
    ∀ h (m' : μ) s, At Q m d h m' s → At Q m (Durable.apply d step) (h ++ [step]) m'
      (Durable.apply s step) := by
  rintro h m' s ⟨hs, rfl, rfl⟩
  exact ⟨hQ h s step hquiet hs, rfl, rfl⟩

theorem Passive.left (hQ : Passive Q) {step : Step} (hquiet : step.quiet = true) :
    ∀ h (m' : μ) s, At Q m d h m' s → Left Q (Durable.apply d step) (h ++ [step])
      (Durable.apply s step) := by
  rintro h m' s ⟨hs, rfl, rfl⟩
  exact ⟨hQ h s step hquiet hs, rfl⟩

theorem At.directory {h : List Step} {m' : μ} {s : RecordDirectory} (hs : At Q m d h m' s) : s = d :=
  hs.2.2

theorem catalog_of_index {catalog : Catalog} (hindex : d.index = .holds catalog) :
    d.catalog = .ok catalog := by
  unfold RecordDirectory.catalog
  rw [hindex]

end Steps

/-! ### Calls of one transaction on the index -/

section Index

variable {μ : Type} {Q : List Step → RecordDirectory → Prop} {m : μ} {d : RecordDirectory}
  {catalog : Catalog}

/-- The directory with another index. -/
def RecordDirectory.withIndex (d : RecordDirectory) (catalog : Catalog) : RecordDirectory :=
  { d with index := .holds catalog }

end Index

namespace VolumeCatalog

variable {catalog : Catalog}

theorem readEntries_eq_ok {root : RecordRoot} {entries : List VolumeEntry} {bytes : ℕ}
    {handed : List CatalogVolume} (h : readEntries root catalog bytes entries = .ok handed) :
    handed = entries.map (catalogVolume catalog) := by
  induction entries generalizing bytes handed with
  | nil =>
    cases h
    rfl
  | cons entry entries ih =>
    obtain ⟨_, -, h⟩ := bind_eq_ok.mp h
    obtain ⟨_, -, h⟩ := bind_eq_ok.mp h
    obtain ⟨rest, hrest, h⟩ := bind_eq_ok.mp h
    cases h
    rw [List.map_cons, ih hrest]

/-- The volumes handed out are those of the index that are not being retired. -/
theorem volumes_eq_ok {root : RecordRoot} {handed : List CatalogVolume}
    (h : volumes root catalog = .ok handed) :
    handed = (catalog.volumes.filter fun entry => !isRetiring catalog entry.id).map
      (catalogVolume catalog) :=
  readEntries_eq_ok h

end VolumeCatalog

/-! ### Calls on a volume -/

section Volume

variable {μ : Type} {Q : List Step → RecordDirectory → Prop} {m : μ} {d : RecordDirectory}
  {identity : String}

/-- The directory with another directory, or none, for one volume. -/
def RecordDirectory.withVolume (d : RecordDirectory) (identity : String)
    (directory : Option VolumeDirectory) : RecordDirectory :=
  { d with volumes := Function.update d.volumes identity directory }

@[simp]
theorem withVolume_same (directory : Option VolumeDirectory) :
    (d.withVolume identity directory).volumes identity = directory :=
  Function.update_self ..

theorem withVolume_other {other : String} (hne : other ≠ identity)
    (directory : Option VolumeDirectory) :
    (d.withVolume identity directory).volumes other = d.volumes other :=
  Function.update_of_ne hne ..

@[simp]
theorem withVolume_withVolume (first second : Option VolumeDirectory) :
    (d.withVolume identity first).withVolume identity second = d.withVolume identity second := by
  unfold withVolume
  simp

theorem withVolume_eq_self {directory : Option VolumeDirectory}
    (h : d.volumes identity = directory) : d.withVolume identity directory = d := by
  unfold withVolume
  rw [← h, Function.update_eq_self]

theorem updateVolume_eq {directory : VolumeDirectory} (f : VolumeDirectory → VolumeDirectory)
    (h : d.volumes identity = some directory) :
    d.updateVolume identity f = d.withVolume identity (some (f directory)) := by
  unfold updateVolume withVolume
  rw [h]
  rfl

end Volume

end ProtoScope.Storage
