import Retonr.Proofs.ArtifactRecords

/-! Every store reached from the empty one by any calls keeps the lifecycle invariant: one
lemma says what a call can commit, the next that the invariant survives it. -/

namespace Retonr.ArtifactStateStore
open Retonr.Except

variable {store following : ArtifactStateStore}

theorem encodeRecord_eq_ok {ρ : Type} {toJson : ρ → Text} {record stored : ρ} (encoded : encodeRecord toJson record = .ok stored) :
    stored = record := by
  simp only [encodeRecord] at encoded
  split at encoded
  · cases encoded
  · cases encoded
    rfl

variable {disposition : WriteDisposition}

theorem insertImmutable_cases {κ ρ : Type} [DecidableEq κ] [DecidableEq ρ] {table written : Table κ ρ} {key : κ} {record : ρ}
    (done : insertImmutable table key record = .ok (disposition, written)) :
    written = table ∨ table.find key = none ∧ written = table.upsert key record := by
  simp only [insertImmutable] at done
  split at done
  next absent =>
    cases done
    exact Or.inr ⟨absent, rfl⟩
  · split at done
    · cases done
      exact Or.inl rfl
    · cases done

variable {manifest : ArtifactManifest}

theorem putManifest_cases (done : store.putManifest manifest = .ok (disposition, following)) :
    following = store ∨ manifest.validate = .ok () ∧ store.loadManifest manifest.artifactId = none ∧
      following = { store with artifactManifests := store.artifactManifests.upsert manifest.artifactId.digest manifest } := by
  simp only [putManifest, bind_eq_ok, exists_unit, mapError_eq_ok] at done
  obtain ⟨valid, encoded, stored, ⟨_, table⟩, inserted, rest⟩ := done
  cases encodeRecord_eq_ok stored
  cases rest
  rcases insertImmutable_cases inserted with rfl | ⟨absent, rfl⟩
  · exact Or.inl rfl
  · exact Or.inr ⟨valid, absent, rfl⟩

theorem ensureManifest_cases {written : Table Digest ArtifactManifest}
    (known : ∀ other, store.loadManifest manifest.artifactId = some other → other = manifest)
    (done : store.ensureManifest manifest = .ok (disposition, written)) :
    written = store.artifactManifests.upsert manifest.artifactId.digest manifest := by
  simp only [ensureManifest] at done
  split at done
  next other found =>
    cases known other found
    cases done
    exact (Table.upsert_of_find found).symm
  next absent =>
    simp only [insertImmutable, show store.artifactManifests.find manifest.artifactId.digest = none from absent] at done
    cases done
    rfl

/-- A fresh generation of an artifact that is not installed and has no pending removal. -/
structure Installs (store : ArtifactStateStore) (manifest : ArtifactManifest) (installed : InstalledArtifact)
    (epoch : ArtifactInstallationEpoch) (following : ArtifactStateStore) : Prop where
  manifestValid : manifest.validate = .ok ()
  installedValid : installed.validate = .ok ()
  describes : Describes manifest installed
  known : ∀ other, store.loadManifest manifest.artifactId = some other → other = manifest
  generation : ∃ removal, Loaded store manifest.artifactId none removal ∧ (∀ last ∈ removal, last.phase = .completed) ∧
    nextGeneration removal = .ok epoch
  stored : following = { store with
    artifactManifests := store.artifactManifests.upsert manifest.artifactId.digest manifest
    installedArtifacts := store.installedArtifacts.upsert manifest.artifactId.digest ⟨epoch.databaseValue, installed⟩ }

theorem requireNotPending_none {removal : Option StoredArtifactRemoval} (free : requireNotPending none removal = .ok ()) :
    ∀ last ∈ removal, last.phase = .completed := by
  intro last member
  cases member
  simp only [requireNotPending] at free
  cases phase : last.phase with
  | prepared => simp [phase] at free
  | completed => rfl

variable {installed : InstalledArtifact}

theorem putInstallation_cases
    {disposition : InstallationWriteDisposition} (done : store.putInstallation manifest installed = .ok (disposition, following)) :
    (disposition.installed = .alreadyPresent ∧ following = store ∧
        ∃ removal, Loaded store manifest.artifactId (some disposition.installation) removal) ∨
      disposition.installed = .inserted ∧ disposition.installation.installed = installed ∧
        Installs store manifest installed disposition.installation.epoch following := by
  simp only [putInstallation, validateInstallationInput, bind_eq_ok, exists_unit, mapError_eq_ok,
    require_eq_ok] at done
  obtain ⟨⟨manifestValid, installedValid, id, digest, size⟩, _, _, _, stored, existing, loaded, removal, journal, valid, free, _,
    _, ⟨known, same⟩, ⟨manifestDisposition, table⟩, ensured, rest⟩ := done
  have checked : Loaded store manifest.artifactId existing removal := ⟨loaded, journal, valid⟩
  have manifests := ensureManifest_cases (fun other found => known other found) ensured
  cases existing with
  | some existing =>
    obtain ⟨_, _, other, found, _⟩ := checked.described rfl
    cases known other found
    have kept : table = store.artifactManifests := manifests.trans (Table.upsert_of_find found)
    subst kept
    cases same existing.installed rfl
    cases rest
    exact Or.inl ⟨rfl, rfl, removal, checked⟩
  | none =>
    obtain ⟨epoch, next, rest⟩ := bind_eq_ok.mp rest
    cases rest
    cases encodeRecord_eq_ok stored
    subst manifests
    exact Or.inr ⟨rfl, rfl, manifestValid, installedValid, ⟨id.symm, digest.symm, size.symm⟩, fun other found => known other found,
      ⟨removal, checked, requireNotPending_none free, next⟩, rfl⟩

theorem putQualification_cases {qualification : QualificationRecord}
    (done : store.putQualification qualification = .ok (disposition, following)) :
    following = store ∨ ∃ qualificationId, qualification.qualificationId = .ok qualificationId ∧
      store.qualificationRecords.find qualificationId.digest = none ∧ following = { store with
        qualificationRecords := store.qualificationRecords.upsert qualificationId.digest ⟨qualification.artifactId.digest, qualification⟩ } := by
  simp only [putQualification, bind_eq_ok, exists_unit, mapError_eq_ok] at done
  obtain ⟨_, found, _, rest⟩ := done
  cases found with
  | none => cases rest
  | some manifest =>
    simp only [bind_eq_ok, exists_unit, mapError_eq_ok, require_eq_ok] at rest
    obtain ⟨_, qualificationId, identified, encoded, stored, rest⟩ := rest
    cases encodeRecord_eq_ok stored
    split at rest
    · split at rest
      · cases rest
        exact Or.inl rfl
      · cases rest
    next absent =>
      cases rest
      exact Or.inr ⟨qualificationId, identified, absent, rfl⟩

theorem invalidate_cases {invalidation : QualificationInvalidation} (done : store.invalidate invalidation = .ok following) :
    QualificationInvalidation.validReason invalidation.reasonCode = true ∧
      following = { store with
        qualificationInvalidations := store.qualificationInvalidations ++
          [⟨invalidation.qualificationId.digest, invalidation.reasonCode, invalidation⟩]
        activeBindings := store.activeBindings.deleteWhere fun _ binding =>
          binding.qualificationId == invalidation.qualificationId.digest } := by
  simp only [invalidate, bind_eq_ok, exists_unit, require_eq_ok] at done
  obtain ⟨valid, _, stored, _, _, _, rest⟩ := done
  cases encodeRecord_eq_ok stored
  cases rest
  exact ⟨valid, rfl⟩

variable {activationId : ActivationId} {role : ArtifactRole} {qualificationId : QualificationId} {binding : ActiveArtifactBinding}

theorem activate_cases {verified : InstalledArtifact}
    (done : store.activate activationId role verified qualificationId = .ok (binding, following)) :
    ∃ decisions installation removal qualification invalidations,
      Loaded store verified.artifactId (some installation) removal ∧ installation.installed = verified ∧
      store.loadQualification qualificationId = .ok (some qualification) ∧
      store.loadInvalidations qualificationId = .ok invalidations ∧
      Retonr.activate verified qualification invalidations role = .ok binding ∧
      following = { store with
        activationDecisions := decisions
        activeBindings := store.activeBindings.upsert role.machineName
          ⟨binding.artifactId.digest, binding.qualificationId.digest, binding⟩ } := by
  simp only [activate, bind_eq_ok, exists_unit, mapError_eq_ok] at done
  obtain ⟨_, _, installation, installed, removal, journal, valid, _, rest⟩ := done
  cases installation with
  | none => cases rest
  | some installation =>
    simp only [bind_eq_ok, exists_unit, require_eq_ok] at rest
    obtain ⟨same, found, qualified, rest⟩ := rest
    cases found with
    | none => cases rest
    | some qualification =>
      simp only [bind_eq_ok, exists_unit, require_eq_ok, mapError_eq_ok] at rest
      obtain ⟨invalidations, invalidated, _, activated, _, decisions, _, _, stored, _, rest⟩ := rest
      cases encodeRecord_eq_ok stored
      cases rest
      exact ⟨decisions, installation, removal, qualification, invalidations, ⟨installed, journal, valid⟩, same, qualified, invalidated,
        same ▸ activated, rfl⟩

theorem deactivate_cases (done : store.deactivate activationId role = .ok following) :
    ∃ decisions, following = { store with
      activationDecisions := decisions
      activeBindings := store.activeBindings.deleteWhere fun key _ => key == role.machineName } := by
  simp only [deactivate, bind_eq_ok, exists_unit] at done
  obtain ⟨_, _, _, decisions, _, rest⟩ := done
  cases rest
  exact ⟨decisions, rfl⟩

theorem writeRemoval_cases {removal : StoredArtifactRemoval} (done : store.writeRemoval removal = .ok following) :
    following = { store with artifactRemovals :=
      store.artifactRemovals.upsert removal.selection.installed.artifactId.digest (removalRow removal) } := by
  simp only [writeRemoval, bind_eq_ok] at done
  obtain ⟨record, stored, rest⟩ := done
  cases encodeRecord_eq_ok stored
  split at rest
  · cases rest
  · cases rest
    rfl

/-- The store with the selected generation journaled as prepared and its installation dropped. -/
def withPrepared (store : ArtifactStateStore) (selection : StoredArtifactInstallation) : ArtifactStateStore :=
  { store with
    artifactRemovals := store.artifactRemovals.upsert selection.installed.artifactId.digest (removalRow ⟨selection, .prepared⟩)
    installedArtifacts := store.installedArtifacts.deleteWhere fun key row =>
      key == selection.installed.artifactId.digest && row.installationEpoch == selection.epoch.databaseValue }

/-- The store with the selected generation journaled as completed. -/
def withCompleted (store : ArtifactStateStore) (selection : StoredArtifactInstallation) : ArtifactStateStore :=
  { store with
    artifactRemovals := store.artifactRemovals.upsert selection.installed.artifactId.digest (removalRow ⟨selection, .completed⟩) }

variable {selection : StoredArtifactInstallation}

theorem prepareArtifactRemoval_cases {disposition : RemovalPreparationDisposition}
    (done : store.prepareArtifactRemoval selection = .ok (disposition, following)) :
    (following = store ∧ ∃ installation removal, Loaded store selection.installed.artifactId installation (some removal) ∧
        removal.selection = selection ∧ (disposition = .alreadyCompleted ∧ removal.phase = .completed ∨
          disposition = .alreadyPrepared ∧ removal.phase = .prepared ∧ store.validateNoActiveBinding selection = .ok ())) ∨
      disposition = .prepared ∧ following = store.withPrepared selection ∧ store.validateNoActiveBinding selection = .ok () ∧
        ∃ removal, Loaded store selection.installed.artifactId (some selection) removal ∧ ∀ last ∈ removal, last.selection ≠ selection := by
  simp only [prepareArtifactRemoval, bind_eq_ok, exists_unit, mapError_eq_ok] at done
  obtain ⟨_, installation, installed, removal, journal, valid, rest⟩ := done
  have loaded : Loaded store selection.installed.artifactId installation removal := ⟨installed, journal, valid⟩
  split at rest
  next last found =>
    obtain ⟨member, same⟩ := Option.filter_eq_some_iff.mp found
    cases member
    split at rest
    next phase =>
      cases rest
      exact Or.inl ⟨rfl, installation, last, loaded, by simpa using same, Or.inl ⟨rfl, phase⟩⟩
    next phase =>
      obtain ⟨_, free, rest⟩ := bind_eq_ok.mp rest
      cases rest
      exact Or.inl ⟨rfl, installation, last, loaded, by simpa using same, Or.inr ⟨rfl, phase, free⟩⟩
  next missing =>
    simp only [bind_eq_ok, exists_unit, require_eq_ok] at rest
    obtain ⟨rfl, free, journaled, written, removed, deleted, rest⟩ := rest
    cases rest
    cases writeRemoval_cases written
    simp only [deleteInstalled, bind_eq_ok, exists_unit, require_eq_ok] at deleted
    obtain ⟨_, _, deleted⟩ := deleted
    cases deleted
    refine Or.inr ⟨rfl, rfl, free, removal, loaded, ?_⟩
    intro last member
    simpa using Option.filter_eq_none_iff.mp missing last member

theorem completeArtifactRemoval_cases {disposition : RemovalCompletionDisposition}
    (done : store.completeArtifactRemoval selection = .ok (disposition, following)) :
    ∃ installation phase, Loaded store selection.installed.artifactId installation (some ⟨selection, phase⟩) ∧
      (disposition = .alreadyCompleted ∧ phase = .completed ∧ following = store ∨
        disposition = .completed ∧ phase = .prepared ∧ store.validateNoActiveBinding selection = .ok () ∧
          following = store.withCompleted selection) := by
  simp only [completeArtifactRemoval, bind_eq_ok] at done
  obtain ⟨installation, installed, removal, journal, rest⟩ := done
  cases removal with
  | none => cases rest
  | some removal =>
    simp only [bind_eq_ok, exists_unit, require_eq_ok] at rest
    obtain ⟨valid, rfl, rest⟩ := rest
    have loaded : Loaded store removal.selection.installed.artifactId installation (some removal) := ⟨installed, journal, valid⟩
    refine ⟨installation, removal.phase, loaded, ?_⟩
    split at rest
    next phase =>
      cases rest
      exact Or.inl ⟨rfl, phase, rfl⟩
    next phase =>
      simp only [bind_eq_ok, exists_unit, require_eq_ok] at rest
      obtain ⟨_, free, completed, written, rest⟩ := rest
      cases rest
      cases writeRemoval_cases written
      exact Or.inr ⟨rfl, phase, free, rfl⟩

theorem Lifecycle.artifacts_frame (lifecycle : Lifecycle store)
    (same : ∀ artifactId, following.artifactRemovalState artifactId = store.artifactRemovalState artifactId) (artifactId : ArtifactId) :
    ∃ installation removal, Loaded following artifactId installation removal := by
  obtain ⟨installation, removal, loaded⟩ := lifecycle.artifacts artifactId
  exact ⟨installation, removal, loaded.frame (same artifactId)⟩

/-- The invariant survives a change of one artifact that no binding names. -/
theorem Lifecycle.frame (lifecycle : Lifecycle store) (changed : ArtifactId)
    (qualifications : following.qualificationRecords = store.qualificationRecords)
    (invalidations : following.qualificationInvalidations = store.qualificationInvalidations)
    (bindings : following.activeBindings = store.activeBindings)
    (others : ∀ artifactId, artifactId ≠ changed → following.artifactRemovalState artifactId = store.artifactRemovalState artifactId)
    (loads : ∃ installation removal, Loaded following changed installation removal)
    (unbound : ∀ binding, Authorized store binding → (∃ role row, store.activeBindings.find role = some row ∧
      decodeStoredBinding role row = .ok binding) → binding.artifactId ≠ changed) : Lifecycle following := by
  refine ⟨?_, ?_, ?_, ?_⟩
  · intro artifactId
    by_cases same : artifactId = changed
    · exact same ▸ loads
    · obtain ⟨installation, removal, loaded⟩ := lifecycle.artifacts artifactId
      exact ⟨installation, removal, loaded.frame (others artifactId same)⟩
  · intro qualificationId
    simpa only [loadQualification, qualifications] using lifecycle.qualifications qualificationId
  · intro qualificationId
    simpa only [loadInvalidations, invalidations] using lifecycle.invalidations qualificationId
  · intro role row found
    rw [bindings] at found
    obtain ⟨binding, decoded, authorized⟩ := lifecycle.bindings role row found
    refine ⟨binding, decoded, authorized.frame (others _ (unbound binding authorized ⟨role, row, found, decoded⟩)) ?_ ?_⟩
    · simp only [loadQualification, qualifications]
    · simp only [loadInvalidations, invalidations]

theorem digest_ne {left right : ArtifactId} (different : left ≠ right) : left.digest ≠ right.digest :=
  fun same => different (ArtifactId.eq_of_digest same)

/-- A new manifest changes no artifact's installation or journal. -/
theorem Lifecycle.putManifest_state (lifecycle : Lifecycle store)
    (done : store.putManifest manifest = .ok (disposition, following)) (artifactId : ArtifactId) :
    following.artifactRemovalState artifactId = store.artifactRemovalState artifactId := by
  rcases putManifest_cases done with rfl | ⟨valid, missing, rfl⟩
  · rfl
  by_cases same : artifactId = manifest.artifactId
  · subst same
    obtain ⟨installation, removal, loaded⟩ := lifecycle.artifacts manifest.artifactId
    obtain ⟨rfl, rfl⟩ := loaded.absent missing
    rw [artifactRemovalState_eq_ok.mpr loaded, artifactRemovalState_eq_ok]
    refine .of_facts loaded.installed loaded.journal ?_ nofun nofun nofun
    intro found present
    simp only [loadManifest, Table.find_upsert, if_true, Option.some.injEq] at present
    exact present ▸ ⟨valid, rfl⟩
  · exact artifactRemovalState_congr (by simp [digest_ne same]) rfl rfl

theorem Lifecycle.putManifest (lifecycle : Lifecycle store)
    (done : store.putManifest manifest = .ok (disposition, following)) : Lifecycle following := by
  have states := lifecycle.putManifest_state done
  rcases putManifest_cases done with rfl | ⟨_, _, rfl⟩
  · exact lifecycle
  refine ⟨lifecycle.artifacts_frame states, lifecycle.qualifications, lifecycle.invalidations, ?_⟩
  intro role row found
  obtain ⟨binding, decoded, authorized⟩ := lifecycle.bindings role row found
  exact ⟨binding, decoded, authorized.frame (states _) rfl rfl⟩

theorem Installs.loaded {epoch : ArtifactInstallationEpoch} (installs : Installs store manifest installed epoch following) :
    ∃ removal, Loaded store manifest.artifactId none removal ∧ Loaded following manifest.artifactId (some ⟨installed, epoch⟩) removal := by
  obtain ⟨removal, loaded, completed, next⟩ := installs.generation
  obtain ⟨manifestValid, installedValid, describes, known, _, rfl⟩ := installs
  have found : ({ store with
      artifactManifests := store.artifactManifests.upsert manifest.artifactId.digest manifest
      installedArtifacts := store.installedArtifacts.upsert manifest.artifactId.digest ⟨epoch.databaseValue, installed⟩ } :
        ArtifactStateStore).loadManifest manifest.artifactId = some manifest := by
    simp [loadManifest]
  refine ⟨removal, loaded, .of_facts ?_ loaded.journal ?_ ?_ ?_ ?_⟩
  · rw [loadInstallation_eq_some]
    exact ⟨by simp, installedValid, describes.artifactId⟩
  · intro other present
    rw [found] at present
    cases present
    exact ⟨manifestValid, rfl⟩
  · intro current member
    cases member
    exact ⟨installedValid, describes.artifactId, manifest, found, describes⟩
  · intro last member
    obtain ⟨valid, same, other, stored, described⟩ := loaded.journaled member
    cases known other stored
    exact ⟨valid, same, _, found, described⟩
  · intro current member
    cases member
    cases removal with
    | none =>
      cases next
      exact ⟨by rintro _ ⟨⟩, fun _ => rfl⟩
    | some last =>
      refine ⟨?_, by rintro ⟨⟩⟩
      intro other member
      cases member
      exact ⟨completed last rfl, next⟩

variable {artifactId : ArtifactId}

theorem Installs.others {epoch : ArtifactInstallationEpoch} (installs : Installs store manifest installed epoch following)
    (different : artifactId ≠ manifest.artifactId) : following.artifactRemovalState artifactId = store.artifactRemovalState artifactId := by
  obtain ⟨_, _, _, _, _, rfl⟩ := installs
  exact artifactRemovalState_congr (by simp [digest_ne different]) (by simp [digest_ne different]) rfl

section
variable (lifecycle : Lifecycle store)
include lifecycle

theorem Lifecycle.putInstallation
    {disposition : InstallationWriteDisposition} (done : store.putInstallation manifest installed = .ok (disposition, following)) :
    Lifecycle following := by
  rcases putInstallation_cases done with ⟨_, rfl, _⟩ | ⟨_, _, installs⟩
  · exact lifecycle
  obtain ⟨removal, before, after⟩ := installs.loaded
  have others : ∀ artifactId, artifactId ≠ manifest.artifactId →
      following.artifactRemovalState artifactId = store.artifactRemovalState artifactId := fun _ => installs.others
  obtain ⟨_, _, _, _, _, rfl⟩ := installs
  refine lifecycle.frame manifest.artifactId rfl rfl rfl others ⟨_, _, after⟩ ?_
  intro binding authorized _ same
  have installed := authorized.installed (same ▸ before)
  cases installed

theorem Lifecycle.putQualification {qualification : QualificationRecord}
    (done : store.putQualification qualification = .ok (disposition, following)) : Lifecycle following := by
  rcases putQualification_cases done with rfl | ⟨fresh, identified, absent, rfl⟩
  · exact lifecycle
  have others : ∀ qualificationId : QualificationId, qualificationId ≠ fresh → ∀ row,
      ({ store with qualificationRecords := store.qualificationRecords.upsert fresh.digest row } :
        ArtifactStateStore).loadQualification qualificationId = store.loadQualification qualificationId := by
    intro qualificationId different row
    have keys : qualificationId.digest ≠ fresh.digest := fun same => different (QualificationId.eq_of_digest same)
    simp [loadQualification, keys]
  refine ⟨lifecycle.artifacts_frame fun _ => rfl, ?_, lifecycle.invalidations, ?_⟩
  · intro qualificationId
    by_cases same : qualificationId = fresh
    · subst same
      exact ⟨some qualification, by simp [loadQualification, identified]⟩
    · rw [others qualificationId same _]
      exact lifecycle.qualifications qualificationId
  · intro role row found
    obtain ⟨binding, decoded, authorized⟩ := lifecycle.bindings role row found
    refine ⟨binding, decoded, authorized.frame rfl (others _ ?_ _) rfl⟩
    -- The binding's qualification was stored before, so it is not the fresh one.
    intro same
    obtain ⟨_, _, record, _, _, qualified, _⟩ := authorized
    simp only [loadQualification, same, absent] at qualified
    cases qualified

omit lifecycle in
theorem loadInvalidations_append (row : InvalidationRow) (different : row.qualificationId ≠ qualificationId.digest) :
    ({ store with qualificationInvalidations := store.qualificationInvalidations ++ [row] } :
      ArtifactStateStore).loadInvalidations qualificationId = store.loadInvalidations qualificationId := by
  have skipped : (row.qualificationId == qualificationId.digest) = false := by simpa using different
  simp only [loadInvalidations, List.find?_append, List.find?_cons, skipped, List.find?_nil, Option.or_none]

theorem Lifecycle.invalidate {invalidation : QualificationInvalidation}
    (done : store.invalidate invalidation = .ok following) : Lifecycle following := by
  obtain ⟨valid, rfl⟩ := invalidate_cases done
  refine ⟨lifecycle.artifacts_frame fun _ => rfl, lifecycle.qualifications, ?_, ?_⟩
  · intro qualificationId
    by_cases same : qualificationId = invalidation.qualificationId
    · subst same
      obtain ⟨items, read⟩ := lifecycle.invalidations invalidation.qualificationId
      cases found : store.qualificationInvalidations.find? fun row =>
          row.qualificationId == invalidation.qualificationId.digest with
      | none => exact ⟨[invalidation], by simp [loadInvalidations, List.find?_append, found, valid]⟩
      | some row =>
        refine ⟨items, ?_⟩
        simpa [loadInvalidations, List.find?_append, found] using read
    · have different : invalidation.qualificationId.digest ≠ qualificationId.digest :=
        fun equal => same (QualificationId.eq_of_digest equal.symm)
      obtain ⟨items, read⟩ := lifecycle.invalidations qualificationId
      exact ⟨items, (loadInvalidations_append ⟨_, _, _⟩ different).trans read⟩
  · intro role row found
    rw [Table.find_deleteWhere, Option.filter_eq_some_iff] at found
    obtain ⟨found, kept⟩ := found
    obtain ⟨binding, decoded, authorized⟩ := lifecycle.bindings role row found
    refine ⟨binding, decoded, authorized.frame rfl rfl (loadInvalidations_append ⟨_, _, _⟩ ?_)⟩
    simp only [decodeStoredBinding] at decoded
    split at decoded
    · cases decoded
    next same =>
      cases decoded
      simp only [not_or, not_not] at same
      rw [← same.2.2]
      have different : row.qualificationId ≠ invalidation.qualificationId.digest := by simpa using kept
      exact different.symm

theorem Lifecycle.activate {verified : InstalledArtifact}
    (done : store.activate activationId role verified qualificationId = .ok (binding, following)) : Lifecycle following := by
  obtain ⟨decisions, installation, removal, qualification, invalidations, loaded, rfl, qualified, invalidated, activated, rfl⟩ :=
    activate_cases done
  have bound := Retonr.activate_eq_ok activated
  have same : binding.qualificationId = qualificationId := by
    simp only [loadQualification] at qualified
    split at qualified
    · cases qualified
    next row found =>
      split at qualified
      · cases qualified
      next identity identified =>
        split at qualified
        next equal =>
          cases qualified
          exact (Except.ok.inj (bound.qualificationId.symm.trans identified)).trans equal
        · cases qualified
  refine ⟨lifecycle.artifacts_frame fun _ => rfl, lifecycle.qualifications, lifecycle.invalidations, ?_⟩
  intro other row found
  simp only [Table.find_upsert] at found
  split at found
  next key =>
    cases found
    refine ⟨binding, by simp [decodeStoredBinding, key, bound.role], ⟨installation, removal, qualification, invalidations, ?_⟩⟩
    rw [bound.artifactId, same, bound.role]
    exact ⟨loaded.frame rfl, qualified, invalidated, activated⟩
  · obtain ⟨old, decoded, authorized⟩ := lifecycle.bindings other row found
    exact ⟨old, decoded, authorized.frame rfl rfl rfl⟩

theorem Lifecycle.deactivate (done : store.deactivate activationId role = .ok following) : Lifecycle following := by
  obtain ⟨decisions, rfl⟩ := deactivate_cases done
  refine ⟨lifecycle.artifacts_frame fun _ => rfl, lifecycle.qualifications, lifecycle.invalidations, ?_⟩
  intro other row found
  rw [Table.find_deleteWhere, Option.filter_eq_some_iff] at found
  obtain ⟨binding, decoded, authorized⟩ := lifecycle.bindings other row found.1
  exact ⟨binding, decoded, authorized.frame rfl rfl rfl⟩

omit lifecycle in
theorem Loaded.withPrepared {removal : Option StoredArtifactRemoval}
    (loaded : Loaded store selection.installed.artifactId (some selection) removal) :
    Loaded (store.withPrepared selection) selection.installed.artifactId none (some ⟨selection, .prepared⟩) := by
  obtain ⟨valid, same, described⟩ := loaded.described rfl
  obtain ⟨row, _, _⟩ := loadInstallation_eq_some.mp loaded.installed
  refine .of_facts ?_ ?_ (fun found present => loaded.manifest_valid present) nofun ?_ nofun
  · rw [loadInstallation_eq_none]
    simp [ArtifactStateStore.withPrepared, Table.find_deleteWhere, row]
  · exact loadRemoval_of_row (by simp [ArtifactStateStore.withPrepared]) valid rfl
  · intro last member
    cases member
    exact ⟨valid, rfl, described⟩

omit lifecycle in
theorem Loaded.withCompleted {phase : ArtifactRemovalPhase}
    (loaded : Loaded store selection.installed.artifactId none (some ⟨selection, phase⟩)) :
    Loaded (store.withCompleted selection) selection.installed.artifactId none (some ⟨selection, .completed⟩) := by
  obtain ⟨valid, _, described⟩ := loaded.journaled rfl
  refine .of_facts loaded.installed ?_ (fun found present => loaded.manifest_valid present) nofun ?_ nofun
  · exact loadRemoval_of_row (by simp [ArtifactStateStore.withCompleted]) valid rfl
  · intro last member
    cases member
    exact ⟨valid, rfl, described⟩

omit lifecycle in
theorem withPrepared_others (different : artifactId ≠ selection.installed.artifactId) :
    (store.withPrepared selection).artifactRemovalState artifactId = store.artifactRemovalState artifactId := by
  refine artifactRemovalState_congr rfl ?_ ?_
  · have keys : (artifactId.digest == selection.installed.artifactId.digest) = false := by simpa using digest_ne different
    cases found : store.installedArtifacts.find artifactId.digest <;> simp [withPrepared, Table.find_deleteWhere, keys, found]
  · simp [withPrepared, digest_ne different]

omit lifecycle in
theorem withCompleted_others (different : artifactId ≠ selection.installed.artifactId) :
    (store.withCompleted selection).artifactRemovalState artifactId = store.artifactRemovalState artifactId :=
  artifactRemovalState_congr rfl rfl (by simp [withCompleted, digest_ne different])

theorem Lifecycle.prepareArtifactRemoval
    {disposition : RemovalPreparationDisposition} (done : store.prepareArtifactRemoval selection = .ok (disposition, following)) :
    Lifecycle following := by
  rcases prepareArtifactRemoval_cases done with ⟨rfl, _⟩ | ⟨_, rfl, free, removal, loaded, _⟩
  · exact lifecycle
  refine lifecycle.frame selection.installed.artifactId rfl rfl rfl (fun _ => withPrepared_others) ⟨_, _, loaded.withPrepared⟩ ?_
  rintro binding _ ⟨role, row, found, decoded⟩
  exact lifecycle.validateNoActiveBinding_eq_ok.mp free role row binding found decoded

theorem Lifecycle.completeArtifactRemoval
    {disposition : RemovalCompletionDisposition} (done : store.completeArtifactRemoval selection = .ok (disposition, following)) :
    Lifecycle following := by
  obtain ⟨installation, phase, loaded, ⟨_, _, rfl⟩ | ⟨_, rfl, free, rfl⟩⟩ := completeArtifactRemoval_cases done
  · exact lifecycle
  obtain rfl := loaded.not_installed_of_prepared rfl rfl
  refine lifecycle.frame selection.installed.artifactId rfl rfl rfl (fun _ => withCompleted_others) ⟨_, _, loaded.withCompleted⟩ ?_
  rintro binding _ ⟨role, row, found, decoded⟩
  exact lifecycle.validateNoActiveBinding_eq_ok.mp free role row binding found decoded

theorem Lifecycle.transact {call : StoreCall} {reply : StoreReply}
    (done : store.transact call = .ok (reply, following)) : Lifecycle following := by
  cases call with
  | putManifest manifest =>
    obtain ⟨⟨_, _⟩, committed, same⟩ := map_eq_ok.mp done
    cases same
    exact lifecycle.putManifest committed
  | putInstallation manifest installed =>
    obtain ⟨⟨_, _⟩, committed, same⟩ := map_eq_ok.mp done
    cases same
    exact lifecycle.putInstallation committed
  | putQualification qualification =>
    obtain ⟨⟨_, _⟩, committed, same⟩ := map_eq_ok.mp done
    cases same
    exact lifecycle.putQualification committed
  | invalidate invalidation =>
    obtain ⟨_, committed, same⟩ := map_eq_ok.mp done
    cases same
    exact lifecycle.invalidate committed
  | activate activationId role verified qualificationId =>
    obtain ⟨⟨_, _⟩, committed, same⟩ := map_eq_ok.mp done
    cases same
    exact lifecycle.activate committed
  | deactivate activationId role =>
    obtain ⟨_, committed, same⟩ := map_eq_ok.mp done
    cases same
    exact lifecycle.deactivate committed
  | prepareArtifactRemoval selection =>
    obtain ⟨⟨_, _⟩, committed, same⟩ := map_eq_ok.mp done
    cases same
    exact lifecycle.prepareArtifactRemoval committed
  | completeArtifactRemoval selection =>
    obtain ⟨⟨_, _⟩, committed, same⟩ := map_eq_ok.mp done
    cases same
    exact lifecycle.completeArtifactRemoval committed

theorem Lifecycle.after (call : StoreCall) : Lifecycle (store.after call) := by
  simp only [ArtifactStateStore.after]
  split
  next reply committed done => exact lifecycle.transact done
  · exact lifecycle

theorem Lifecycle.run (calls : List StoreCall) : Lifecycle (store.run calls) := by
  induction calls generalizing store with
  | nil => exact lifecycle
  | cons call calls ih => exact ih (lifecycle.after call)

end

/-- An authorized binding rests on an installed artifact and on a stored qualification without any invalidation
for which the activation rule gives exactly this binding. -/
theorem Authorized.standing (authorized : Authorized store binding) : ∃ installation removal qualification,
      store.artifactRemovalState binding.artifactId = .ok (some installation, removal) ∧
      store.loadQualification binding.qualificationId = .ok (some qualification) ∧
      (∀ row ∈ store.qualificationInvalidations, row.qualificationId ≠ binding.qualificationId.digest) ∧
      qualification.authorizes binding.artifactId binding.role = true ∧
      Retonr.activate installation.installed qualification [] binding.role = .ok binding := by
  obtain ⟨installation, removal, qualification, invalidations, loaded, qualified, invalidated, activated⟩ := authorized
  have bound := Retonr.activate_eq_ok activated
  have standing : store.qualificationInvalidations.find? (fun row => row.qualificationId == binding.qualificationId.digest) = none := by
    cases found : store.qualificationInvalidations.find? fun row => row.qualificationId == binding.qualificationId.digest with
    | none => rfl
    | some row =>
      -- The first such row is loaded, and the activation rule refuses it.
      simp only [loadInvalidations, found] at invalidated
      split at invalidated
      · cases invalidated
      · split at invalidated
        · cases invalidated
        next consistent =>
          cases invalidated
          simp only [not_or, not_not] at consistent
          exact absurd consistent.1 (bound.standing row.recordJson (by simp))
  have none : invalidations = [] := by
    simp only [loadInvalidations, standing, Except.ok.injEq] at invalidated
    exact invalidated.symm
  subst none
  refine ⟨installation, removal, qualification, artifactRemovalState_eq_ok.mpr loaded, qualified, ?_, bound.authorizes, activated⟩
  intro row member
  simpa using List.find?_eq_none.mp standing row member

/-- What the store promises to a caller that reads it back. -/
structure Sound (store : ArtifactStateStore) : Prop where
  removal_state : ∀ artifactId, ∃ installation removal, store.artifactRemovalState artifactId = .ok (installation, removal)
  prepared_excludes_installed : ∀ artifactId installation removal,
    store.artifactRemovalState artifactId = .ok (installation, some removal) → removal.phase = .prepared → installation = none
  first_generation : ∀ artifactId current,
    store.artifactRemovalState artifactId = .ok (some current, none) → current.epoch.get = 1
  next_generation : ∀ artifactId current removal,
    store.artifactRemovalState artifactId = .ok (some current, some removal) →
      current.epoch.get = 1 + removal.selection.epoch.get
  bindings : ∀ role row, store.activeBindings.find role = some row → ∃ binding installation removal qualification,
    decodeStoredBinding role row = .ok binding ∧
    store.artifactRemovalState binding.artifactId = .ok (some installation, removal) ∧
    store.loadQualification binding.qualificationId = .ok (some qualification) ∧
    (∀ invalidation ∈ store.qualificationInvalidations, invalidation.qualificationId ≠ binding.qualificationId.digest) ∧
    qualification.authorizes binding.artifactId binding.role = true ∧
    Retonr.activate installation.installed qualification [] binding.role = .ok binding
  recovery : ∃ bindings, store.recoverActiveBindings (fun _ => true) = .ok bindings ∧
    ∀ binding, binding ∈ bindings ↔
      ∃ role row, store.activeBindings.find role = some row ∧ decodeStoredBinding role row = .ok binding

theorem Lifecycle.sound (lifecycle : Lifecycle store) : Sound store := by
  refine ⟨?_, ?_, ?_, ?_, ?_, ?_⟩
  · intro artifactId
    obtain ⟨installation, removal, loaded⟩ := lifecycle.artifacts artifactId
    exact ⟨installation, removal, artifactRemovalState_eq_ok.mpr loaded⟩
  · intro artifactId installation removal read prepared
    exact (artifactRemovalState_eq_ok.mp read).not_installed_of_prepared rfl prepared
  · intro artifactId current read
    rw [((artifactRemovalState_eq_ok.mp read).generation rfl).2 rfl]
    rfl
  · intro artifactId current removal read
    obtain ⟨_, next⟩ := ((artifactRemovalState_eq_ok.mp read).generation rfl).1 removal rfl
    rw [ArtifactInstallationEpoch.get_of_next next, Nat.add_comm]
  · intro role row found
    obtain ⟨binding, decoded, authorized⟩ := lifecycle.bindings role row found
    obtain ⟨installation, removal, qualification, evidence⟩ := authorized.standing
    exact ⟨binding, installation, removal, qualification, decoded, evidence⟩
  · obtain ⟨bindings, loaded, members⟩ := lifecycle.loads_bindings
    refine ⟨bindings, ?_, members⟩
    simp only [recoverActiveBindings, loaded, ok_bind]
    apply mapM_eq_self
    intro binding member
    exact validateBinding_eq_ok.mpr ⟨rfl, lifecycle.authorized loaded member⟩

/-- Whatever is called, in whatever order and with whatever arguments, from the empty store: a prepared removal
never stands beside an installation, an installation is one generation after the last removal, every active
binding is authorized by installed and standing evidence, and neither recovery nor a removal-state read fails. -/
theorem reachable_store_is_sound (calls : List StoreCall) : Sound (empty.run calls) :=
  (Lifecycle.initial.run calls).sound

end Retonr.ArtifactStateStore
