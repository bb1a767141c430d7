/-
How a volume is taken away: its files one after the other, its directory, its entry.
-/
import ProtoScope.Proofs.Storage.Calls

namespace ProtoScope.Storage

open ProtoScope.Data ProtoScope.Library VolumeCatalog Triple

section Retirement

variable {μ : Type} {Q : List Step → RecordDirectory → Prop} {m : μ} {d : RecordDirectory}
  {identity : String}

theorem remove_of_not_exists {directory : VolumeDirectory} {file : VolumeFile}
    (h : directory.exists file = false) : directory.remove file = directory := by
  rcases directory with ⟨owner, database, wal, shm⟩
  induction file with
  | owner =>
    obtain rfl : owner = none := by simpa [VolumeDirectory.exists] using h
    rfl
  | database =>
    have hdatabase : database = .absent := by
      unfold VolumeDirectory.exists at h
      dsimp only at h
      split at h
      · rfl
      · cases h
    rw [hdatabase]
    rfl
  | wal =>
    obtain rfl : wal = false := h
    rfl
  | shm =>
    obtain rfl : shm = false := h
    rfl

theorem removeIfExists_spec (hQ : Passive Q) {directory : VolumeDirectory}
    (hdirectory : d.volumes identity = some directory) (file : VolumeFile)
    {fail : String → List Step → μ → RecordDirectory → Prop} :
    Triple (At Q m d) (removeIfExists identity file)
      (Left Q (d.withVolume identity (some (directory.remove file))))
      (fun _ => At Q m (d.withVolume identity (some (directory.remove file)))) fail := by
  unfold removeIfExists
  apply durable_then (fun h m' s hs => hs.directory)
  rw [hdirectory]
  dsimp only
  split
  · have happly : Durable.apply d (Step.removeFile identity file) =
        d.withVolume identity (some (directory.remove file)) :=
      updateVolume_eq _ hdirectory
    apply write (fun h m' s hs => happly ▸ hQ.left rfl h m' s hs)
    intro h m' s hs
    exact happly ▸ hQ.at rfl h m' s hs
  · rename_i hnot
    have hself : d.withVolume identity (some (directory.remove file)) = d := by
      apply withVolume_eq_self
      rw [hdirectory, remove_of_not_exists (by simpa using hnot)]
    apply Triple.pure
    intro h m' s hs
    rw [hself]
    exact hs

/-- What a directory looks like while its files are removed one after the other. -/
inductive Emptied (directory : VolumeDirectory) : VolumeDirectory → Prop
  | database : Emptied directory (directory.remove .database)
  | wal : Emptied directory ((directory.remove .database).remove .wal)
  | shm : Emptied directory (((directory.remove .database).remove .wal).remove .shm)
  | owner : Emptied directory ((((directory.remove .database).remove .wal).remove .shm).remove .owner)

/-- The four files of a directory and the directory itself are removed. -/
theorem removeFiles_spec (hQ : Passive Q) {directory : VolumeDirectory}
    (hdirectory : d.volumes identity = some directory)
    {fail : String → List Step → μ → RecordDirectory → Prop} :
    Triple (At Q m d)
      (do
        removeIfExists identity .database
        removeIfExists identity .wal
        removeIfExists identity .shm
        removeIfExists identity .owner
        .write (.removeDirectory identity) : Storing μ Unit)
      (fun h s => (∃ emptied, Emptied directory emptied ∧
          Left Q (d.withVolume identity (some emptied)) h s) ∨
        Left Q (d.withVolume identity none) h s)
      (fun _ => At Q m (d.withVolume identity none)) fail := by
  have stage : ∀ {emptied : VolumeDirectory}, Emptied directory emptied → ∀ h s,
      Left Q (d.withVolume identity (some emptied)) h s →
      (∃ emptied, Emptied directory emptied ∧
          Left Q (d.withVolume identity (some emptied)) h s) ∨
        Left Q (d.withVolume identity none) h s :=
    fun hemptied h s hs => .inl ⟨_, hemptied, hs⟩
  have next : ∀ (previous : VolumeDirectory) (file : VolumeFile),
      Emptied directory (previous.remove file) →
      Triple (At Q m (d.withVolume identity (some previous)))
        (removeIfExists identity file)
        (fun h s => (∃ emptied, Emptied directory emptied ∧
            Left Q (d.withVolume identity (some emptied)) h s) ∨
          Left Q (d.withVolume identity none) h s)
        (fun _ => At Q m (d.withVolume identity (some (previous.remove file)))) fail := by
    intro previous file hemptied
    apply (removeIfExists_spec hQ (withVolume_same _) file).conseq (fun h m' s hs => hs)
    · intro h s hs
      rw [withVolume_withVolume] at hs
      exact stage hemptied h s hs
    · intro _ h m' s hs
      rw [withVolume_withVolume] at hs
      exact hs
    · intro _ h m' s hs
      exact hs
  have hself : d.withVolume identity (some directory) = d := withVolume_eq_self hdirectory
  have hfirst := next directory .database .database
  rw [hself] at hfirst
  apply hfirst.bind
  intro _
  apply (next _ .wal .wal).bind
  intro _
  apply (next _ .shm .shm).bind
  intro _
  apply (next _ .owner .owner).bind
  intro _
  have happly : ∀ directory, Durable.apply (d.withVolume identity (some directory))
      (Step.removeDirectory identity) = d.withVolume identity none :=
    fun directory => withVolume_withVolume (some directory) none
  apply write
  · intro h m' s hs
    exact .inr (happly _ ▸ hQ.left rfl h m' s hs)
  · intro h m' s hs
    exact happly _ ▸ hQ.at rfl h m' s hs

/-- A volume that is there is checked and then removed. -/
theorem removeVolume_spec (hQ : Passive Q) (root : RecordRoot) (count : ℕ) :
    Triple (At Q m d) (removeVolume root identity count)
      (fun h s => (∃ directory emptied, d.volumes identity = some directory ∧
          checkRetired root identity count directory = .ok () ∧
          Emptied directory emptied ∧ Left Q (d.withVolume identity (some emptied)) h s) ∨
        Left Q (d.withVolume identity none) h s)
      (fun _ => At Q m (d.withVolume identity none))
      (fun _ h m' s => At Q m d h m' s ∧ ∃ directory, d.volumes identity = some directory ∧
        checkRetired root identity count directory ≠ .ok ()) := by
  unfold removeVolume
  apply durable_then (fun h m' s hs => hs.directory)
  split
  · rename_i hnone
    apply Triple.pure
    intro h m' s hs
    rw [withVolume_eq_self hnone]
    exact hs
  · rename_i directory hdirectory
    apply ofExcept_then
    · intro e herror h m' s hs
      refine ⟨hs, directory, hdirectory, ?_⟩
      rw [herror]
      intro hok
      cases hok
    intro _ hcheck
    apply (removeFiles_spec hQ hdirectory).conseq (fun h m' s hs => hs)
    · rintro h s (⟨emptied, hemptied, hs⟩ | hs)
      · exact .inl ⟨directory, emptied, hdirectory, hcheck, hemptied, hs⟩
      · exact .inr hs
    · intro _ h m' s hs
      exact hs
    · intro _ h m' s hs
      exact hs

/-- A retirement takes the volume's directory away and then its entry and the intent. -/
theorem finishRetirement_spec (hQ : Passive Q) {catalog : Catalog}
    (hindex : d.index = .holds catalog) (root : RecordRoot) (id : ℕ) (count : ℕ) :
    Triple (At Q m d) (finishRetirement root id identity count)
      (fun h s => (∃ directory emptied, d.volumes identity = some directory ∧
          checkRetired root identity count directory = .ok () ∧
          Emptied directory emptied ∧ Left Q (d.withVolume identity (some emptied)) h s) ∨
        Left Q (d.withVolume identity none) h s ∨
        Left Q ((d.withVolume identity none).withIndex
          (withoutVolume catalog id identity)) h s)
      (fun _ => At Q m ((d.withVolume identity none).withIndex
        (withoutVolume catalog id identity)))
      (fun _ h m' s => At Q m d h m' s ∧ ¬ (isIdentity identity = true ∧
        ∀ directory, d.volumes identity = some directory →
          checkRetired root identity count directory = .ok ())) := by
  unfold finishRetirement
  apply ofExcept_then
  · intro e herror h m' s hs
    refine ⟨hs, ?_⟩
    rintro ⟨hidentity, -⟩
    unfold checkIdentity at herror
    rw [invalid, if_neg (by simp [hidentity])] at herror
    cases herror
  intro _ _
  apply bind (q := fun _ => At Q m (d.withVolume identity none))
  · apply (removeVolume_spec hQ root count).conseq (fun h m' s hs => hs)
    · rintro h s (hs | hs)
      · exact .inl hs
      · exact .inr (.inl hs)
    · intro _ h m' s hs
      exact hs
    · rintro _ h m' s ⟨hs, directory, hdirectory, hcheck⟩
      exact ⟨hs, fun hgood => hcheck (hgood.2 directory hdirectory)⟩
  intro _
  apply durable_then (fun h m' s hs => hs.directory)
  have hcatalog : (d.withVolume identity none).catalog = .ok catalog := catalog_of_index hindex
  rw [hcatalog]
  apply ofExcept_then
  · intro e herror
    cases herror
  intro c hc
  cases hc
  apply write
  · intro h m' s hs
    exact .inr (.inr (hQ.left rfl h m' s hs))
  · intro h m' s hs
    exact hQ.at rfl h m' s hs

end Retirement

end ProtoScope.Storage
