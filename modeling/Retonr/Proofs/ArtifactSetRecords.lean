import Retonr.ModelStore.ArtifactSetOperations
import Retonr.Proofs.ArtifactSetJson

/-! What the artifact-set tables hold about one set, and that the store reads it back as it stands:
a manifest of that identity, the generation installed under it and the journal of its latest removal. -/

namespace Retonr.ArtifactSetStore
open Text Retonr.Except

variable {store following : ArtifactSetStore} {artifactSetId : ArtifactSetId}

/-- A manifest that is valid and has the identity it is stored under. -/
structure Certified (artifactSetId : ArtifactSetId) (manifest : ArtifactSetManifest) : Prop where
  valid : manifest.validate = .ok ()
  identity : manifest.artifactSetId = artifactSetId

theorem Certified.decoded {manifest : ArtifactSetManifest} (certified : Certified artifactSetId manifest) :
    decodeManifest artifactSetId manifest = .ok manifest := by
  have short := ArtifactSetManifest.byteLen_canonicalJson_le certified.valid
  simp [decodeManifest, certified.valid, certified.identity, short, Except.mapError, require]

/-- The row a generation is stored as. -/
def installedRow (installation : StoredArtifactSetInstallation) : InstalledSetRow :=
  ⟨installation.installed.storageKey, installation.epoch.databaseValue, installation.record⟩

/-- The row a journal is stored as. -/
def removalRow (removal : StoredArtifactSetRemoval) : SetRemovalRow :=
  ⟨removal.selection.epoch.databaseValue, removal.phase.key, removal.record⟩

/-- The manifest of the set is stored and describes the installation. -/
def Describes (store : ArtifactSetStore) (artifactSetId : ArtifactSetId) (installed : InstalledArtifactSet) : Prop :=
  ∃ manifest, store.artifactSetManifests.find artifactSetId.digest = some manifest ∧ installed.validateAgainst manifest = .ok ()

theorem artifactSetId_of_validateAgainst {installed : InstalledArtifactSet} {manifest : ArtifactSetManifest}
    (against : installed.validateAgainst manifest = .ok ()) : installed.artifactSetId = manifest.artifactSetId := by
  simp only [InstalledArtifactSet.validateAgainst, bind_eq_ok, exists_unit, require_eq_ok] at against
  exact against.2.2

/-- A prepared removal excludes an installation, and a generation follows the latest removal or is the first. -/
structure Follows (installation : Option StoredArtifactSetInstallation) (removal : Option StoredArtifactSetRemoval) : Prop where
  prepared : ∀ last ∈ removal, last.phase = .prepared → installation = none
  next : ∀ current ∈ installation, ∀ last ∈ removal, last.selection.epoch.next = .ok current.epoch
  first : removal = none → ∀ current ∈ installation, current.epoch = .first

/-- What the tables hold about one set. -/
structure Holds (store : ArtifactSetStore) (artifactSetId : ArtifactSetId) (installation : Option StoredArtifactSetInstallation)
    (removal : Option StoredArtifactSetRemoval) : Prop where
  certified : ∀ manifest, store.artifactSetManifests.find artifactSetId.digest = some manifest → Certified artifactSetId manifest
  installed : store.installedArtifactSets.find artifactSetId.digest = installation.map installedRow
  journal : store.artifactSetRemovals.find artifactSetId.digest = removal.map removalRow
  described : ∀ current ∈ installation, Describes store artifactSetId current.installed ∧ ∃ record, current.encode = .ok record
  journaled : ∀ last ∈ removal, Describes store artifactSetId last.selection.installed ∧ ∃ record, last.encode = .ok record
  generation : Follows installation removal

theorem decodeInstallation_installedRow {manifest : ArtifactSetManifest} {current : StoredArtifactSetInstallation} {record : ArtifactSetInstallationRecord}
    (against : current.installed.validateAgainst manifest = .ok ()) (identity : manifest.artifactSetId = artifactSetId)
    (encoded : current.encode = .ok record) : decodeInstallation artifactSetId (installedRow current) manifest = .ok current := by
  have same := (artifactSetId_of_validateAgainst against).trans identity
  simp [decodeInstallation, installedRow, StoredArtifactSetInstallation.record, against, same, encoded, Except.mapError, require]

theorem decodeSetRemovalRecord_removalRow {manifest : ArtifactSetManifest} {last : StoredArtifactSetRemoval} {record : ArtifactSetRemovalRecord}
    (against : last.selection.installed.validateAgainst manifest = .ok ()) (identity : manifest.artifactSetId = artifactSetId)
    (encoded : last.encode = .ok record) : decodeSetRemovalRecord artifactSetId (removalRow last) manifest = .ok last := by
  have same := (artifactSetId_of_validateAgainst against).trans identity
  simp [decodeSetRemovalRecord, removalRow, StoredArtifactSetRemoval.record, against, same, encoded, Except.mapError, require]

namespace Holds

variable {installation : Option StoredArtifactSetInstallation} {removal : Option StoredArtifactSetRemoval}

section
variable (holds : Holds store artifactSetId installation removal)
include holds

theorem loadManifest : store.loadArtifactSetManifest artifactSetId = .ok (store.artifactSetManifests.find artifactSetId.digest) := by
  unfold loadArtifactSetManifest
  split
  next absent => rw [absent]
  next manifest found =>
    rw [(holds.certified manifest found).decoded, found]
    rfl

theorem loadInstallation : store.loadArtifactSetInstallation artifactSetId = .ok installation := by
  rw [loadArtifactSetInstallation, holds.installed]
  cases installation with
  | none => rfl
  | some current =>
    obtain ⟨⟨manifest, found, against⟩, record, encoded⟩ := holds.described current rfl
    have certified := holds.certified manifest found
    simp [found, certified.decoded, decodeInstallation_installedRow against certified.identity encoded, Except.map]

theorem loadRemovalRow : store.loadSetRemovalRow artifactSetId (store.artifactSetManifests.find artifactSetId.digest) = .ok removal := by
  have stored := holds.journal
  cases removal with
  | none => simp [loadSetRemovalRow, stored]
  | some last =>
    obtain ⟨⟨manifest, found, against⟩, record, encoded⟩ := holds.journaled last rfl
    have certified := holds.certified manifest found
    simp [loadSetRemovalRow, stored, found, decodeSetRemovalRecord_removalRow against certified.identity encoded, Except.map]

theorem requiresManifest : requireManifest artifactSetId (store.artifactSetManifests.find artifactSetId.digest)
      (installation.map StoredArtifactSetInstallation.installed) = .ok () := by
  cases installation with
  | none =>
    cases found : store.artifactSetManifests.find artifactSetId.digest with
    | none => rfl
    | some manifest => simp [requireManifest, (holds.certified manifest found).identity, require]
  | some current =>
    obtain ⟨⟨manifest, found, against⟩, -⟩ := holds.described current rfl
    have identity := (holds.certified manifest found).identity
    have same := (artifactSetId_of_validateAgainst against).trans identity
    simp [requireManifest, found, against, identity, same, require, Except.mapError]

omit holds in
theorem validGenerations {last : StoredArtifactSetRemoval} (follows : Follows installation (some last)) :
    validateSetGenerations installation last = .ok () := by
  cases installation with
  | none => rfl
  | some current =>
    have prepared : last.phase ≠ .prepared := fun same => nomatch follows.prepared last rfl same
    simp [validateSetGenerations, prepared, follows.next current rfl last rfl, require]

theorem valid : validateSetRemovalState artifactSetId (store.artifactSetManifests.find artifactSetId.digest) installation removal = .ok () := by
  have required := holds.requiresManifest
  cases removal with
  | none => simpa [validateSetRemovalState, required, require] using holds.generation.first rfl
  | some last =>
    obtain ⟨⟨manifest, found, against⟩, -⟩ := holds.journaled last rfl
    have same := (artifactSetId_of_validateAgainst against).trans (holds.certified manifest found).identity
    rw [found] at required
    simp [validateSetRemovalState, required, found, against, same, validGenerations holds.generation, require, Except.mapError]

theorem loads : store.loadSetRemovalState artifactSetId = .ok (installation, removal) := by
  rw [loadSetRemovalState, holds.loadManifest, ok_bind, holds.loadInstallation, ok_bind, holds.loadRemovalRow, ok_bind,
    holds.valid, ok_bind]

theorem absent (missing : store.artifactSetManifests.find artifactSetId.digest = none) : installation = none ∧ removal = none := by
  constructor
  · cases installation with
    | none => rfl
    | some current =>
      obtain ⟨⟨manifest, found, -⟩, -⟩ := holds.described current rfl
      cases missing.symm.trans found
  · cases removal with
    | none => rfl
    | some last =>
      obtain ⟨⟨manifest, found, -⟩, -⟩ := holds.journaled last rfl
      cases missing.symm.trans found

theorem frame (manifests : following.artifactSetManifests.find artifactSetId.digest = store.artifactSetManifests.find artifactSetId.digest)
    (installed : following.installedArtifactSets.find artifactSetId.digest = store.installedArtifactSets.find artifactSetId.digest)
    (removals : following.artifactSetRemovals.find artifactSetId.digest = store.artifactSetRemovals.find artifactSetId.digest) :
    Holds following artifactSetId installation removal where
  certified := manifests ▸ holds.certified
  installed := installed.trans holds.installed
  journal := removals.trans holds.journal
  described current present := by
    rw [Describes, manifests]
    exact holds.described current present
  journaled last present := by
    rw [Describes, manifests]
    exact holds.journaled last present
  generation := holds.generation

end

end Holds

end Retonr.ArtifactSetStore
