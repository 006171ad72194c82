import Retonr.Lib.Table
import Retonr.Model.ArtifactSet

/-! The tables of the artifact state store and the checked reads over them. A stored JSON
record is kept as the record it decodes to; only its size is looked at when it is encoded. -/

namespace Retonr
open Text

inductive StoreError where
  | database
  | invalidManifest (fault : ManifestError)
  | invalidInstallation (fault : InstallationError)
  | invalidQualification (fault : QualificationRecordError)
  | invalidArtifactSet (fault : ArtifactSetManifestError)
  | invalidArtifactSetInstallation (fault : InstalledArtifactSetError)
  | invalidInvalidation
  | invalidDecision
  | recordTooLarge
  | invalidLimit
  | inventoryLimitExceeded
  | corruptRecord
  | immutableConflict
  | missingRecord
  | activeArtifact
  | removalPending
  | staleInstallation
  | installationEpochExhausted
  | invalidActiveBinding
  | verificationFailed

abbrev StoreResult (α : Type) := Except StoreError α

def maxRecordBytes : Nat := 1048576

/-- The record as it is stored, unless its JSON text is over the bound. -/
def encodeRecord {ρ : Type} (toJson : ρ → Text) (record : ρ) : StoreResult ρ :=
  if maxRecordBytes < byteLen (toJson record) then .error .recordTooLarge else .ok record

def i64Max : Nat := 2 ^ 63 - 1

/-- A positive generation number that fits the database column. -/
structure ArtifactInstallationEpoch where
  get : Nat
  positive : 0 < get
  bounded : get ≤ i64Max
  deriving DecidableEq

namespace ArtifactInstallationEpoch

def first : ArtifactInstallationEpoch := ⟨1, by decide, by decide⟩

def fromDatabase (value : Int) : StoreResult ArtifactInstallationEpoch :=
  if inside : 0 < value.toNat ∧ value.toNat ≤ i64Max then .ok ⟨value.toNat, inside.1, inside.2⟩ else .error .corruptRecord

def next (epoch : ArtifactInstallationEpoch) : StoreResult ArtifactInstallationEpoch :=
  if bounded : epoch.get + 1 ≤ i64Max then .ok ⟨epoch.get + 1, Nat.succ_pos _, bounded⟩ else .error .installationEpochExhausted

def databaseValue (epoch : ArtifactInstallationEpoch) : Int := epoch.get

@[simp] theorem fromDatabase_databaseValue (epoch : ArtifactInstallationEpoch) : fromDatabase epoch.databaseValue = .ok epoch := by
  simp [fromDatabase, databaseValue, epoch.positive, epoch.bounded]

theorem eq_databaseValue {value : Int} {epoch : ArtifactInstallationEpoch} (read : fromDatabase value = .ok epoch) :
    value = epoch.databaseValue := by
  simp only [fromDatabase] at read
  split at read
  next inside =>
    cases read
    simp only [databaseValue]
    omega
  · cases read

theorem get_of_next {epoch following : ArtifactInstallationEpoch} (found : epoch.next = .ok following) : following.get = epoch.get + 1 := by
  simp only [next] at found
  split at found
  · cases found
    rfl
  · cases found

end ArtifactInstallationEpoch

/-- One installed generation, as a removal request selects it. -/
structure StoredArtifactInstallation where
  installed : InstalledArtifact
  epoch : ArtifactInstallationEpoch
  deriving DecidableEq

inductive ArtifactRemovalPhase where
  | prepared
  | completed
  deriving DecidableEq

namespace ArtifactRemovalPhase

def key : ArtifactRemovalPhase → Text
  | prepared => "prepared".toList
  | completed => "completed".toList

end ArtifactRemovalPhase

structure ArtifactRemovalRecord where
  schemaVersion : Nat
  installed : InstalledArtifact
  installationEpoch : Nat
  phase : ArtifactRemovalPhase

namespace ArtifactRemovalRecord

def toJson (record : ArtifactRemovalRecord) : Text :=
  Json.object
    [("schema_version".toList, Json.number record.schemaVersion),
     ("installed".toList, record.installed.toJson),
     ("installation_epoch".toList, Json.number record.installationEpoch),
     ("phase".toList, Json.string record.phase.key)]

end ArtifactRemovalRecord

def removalRecordSchemaVersion : Nat := 1

structure StoredArtifactRemoval where
  selection : StoredArtifactInstallation
  phase : ArtifactRemovalPhase
  deriving DecidableEq

namespace StoredArtifactRemoval

def encode (removal : StoredArtifactRemoval) : StoreResult ArtifactRemovalRecord :=
  encodeRecord ArtifactRemovalRecord.toJson
    { schemaVersion := removalRecordSchemaVersion
      installed := removal.selection.installed
      installationEpoch := removal.selection.epoch.get
      phase := removal.phase }

end StoredArtifactRemoval

structure InstalledRow where
  installationEpoch : Int
  recordJson : InstalledArtifact
  deriving DecidableEq

structure QualificationRow where
  artifactId : Digest
  recordJson : QualificationRecord

structure InvalidationRow where
  qualificationId : Digest
  reasonCode : Text
  recordJson : QualificationInvalidation

structure DecisionRow where
  role : Text
  recordJson : ActivationDecision

structure StoredBindingRow where
  (artifactId qualificationId : Digest)
  recordJson : ActiveArtifactBinding

structure RemovalRow where
  installationEpoch : Int
  phase : Text
  recordJson : ArtifactRemovalRecord

/-- The lifecycle tables of the state database; an artifact or qualification key is a digest,
a binding key the name of its role. -/
structure ArtifactStateStore where
  artifactManifests : Table Digest ArtifactManifest
  installedArtifacts : Table Digest InstalledRow
  qualificationRecords : Table Digest QualificationRow
  qualificationInvalidations : List InvalidationRow
  activationDecisions : Table Digest DecisionRow
  activeBindings : Table Text StoredBindingRow
  artifactRemovals : Table Digest RemovalRow

namespace ArtifactStateStore

def empty : ArtifactStateStore where
  artifactManifests := .empty
  installedArtifacts := .empty
  qualificationRecords := .empty
  qualificationInvalidations := []
  activationDecisions := .empty
  activeBindings := .empty
  artifactRemovals := .empty

def loadManifest (store : ArtifactStateStore) (artifactId : ArtifactId) : Option ArtifactManifest :=
  store.artifactManifests.find artifactId.digest

def decodeInstallation (artifactId : ArtifactId) (row : InstalledRow) : StoreResult StoredArtifactInstallation :=
  if row.recordJson.validate ≠ .ok () then .error .corruptRecord
  else if row.recordJson.artifactId ≠ artifactId then .error .corruptRecord
  else (ArtifactInstallationEpoch.fromDatabase row.installationEpoch).map fun epoch => ⟨row.recordJson, epoch⟩

def loadInstallation (store : ArtifactStateStore) (artifactId : ArtifactId) : StoreResult (Option StoredArtifactInstallation) :=
  match store.installedArtifacts.find artifactId.digest with
  | none => .ok none
  | some row => (decodeInstallation artifactId row).map some

def decodeRemoval (indexedId : Digest) (row : RemovalRow) : StoreResult StoredArtifactRemoval :=
  match ArtifactInstallationEpoch.fromDatabase row.installationEpoch with
  | .error fault => .error fault
  | .ok epoch =>
      let record := row.recordJson
      if record.installed.validate ≠ .ok () then .error .corruptRecord
      else if record.schemaVersion ≠ removalRecordSchemaVersion ∨ record.installed.artifactId.digest ≠ indexedId ∨
          record.installationEpoch ≠ epoch.get ∨ record.phase.key ≠ row.phase then .error .corruptRecord
      else .ok ⟨⟨record.installed, epoch⟩, record.phase⟩

def loadRemoval (store : ArtifactStateStore) (artifactId : ArtifactId) : StoreResult (Option StoredArtifactRemoval) :=
  match store.artifactRemovals.find artifactId.digest with
  | none => .ok none
  | some row => (decodeRemoval artifactId.digest row).map some

/-- Replaces the latest removal journal of the artifact; the manifest it refers to must exist. -/
def writeRemoval (store : ArtifactStateStore) (removal : StoredArtifactRemoval) : StoreResult ArtifactStateStore := do
  let recordJson ← removal.encode
  let artifactId := removal.selection.installed.artifactId
  let row : RemovalRow := ⟨removal.selection.epoch.databaseValue, removal.phase.key, recordJson⟩
  if (store.loadManifest artifactId).isNone then .error .database
  else .ok { store with artifactRemovals := store.artifactRemovals.upsert artifactId.digest row }

def decodeStoredBinding (role : Text) (row : StoredBindingRow) : StoreResult ActiveArtifactBinding :=
  let binding := row.recordJson
  if role ≠ binding.role.machineName ∨ row.artifactId ≠ binding.artifactId.digest ∨
      row.qualificationId ≠ binding.qualificationId.digest then .error .corruptRecord
  else .ok binding

def maxActiveBindings : Nat := ArtifactRole.all.length

def decodeBindings : Nat → List (Text × StoredBindingRow) → StoreResult (List ActiveArtifactBinding)
  | _, [] => .ok []
  | loaded, (role, row) :: rows =>
      if loaded = maxActiveBindings then .error .corruptRecord
      else do
        let binding ← decodeStoredBinding role row
        let rest ← decodeBindings (loaded + 1) rows
        .ok (binding :: rest)

/-- Every active binding in the order of its role name. -/
def loadActiveBindings (store : ArtifactStateStore) : StoreResult (List ActiveArtifactBinding) :=
  decodeBindings 0
    ((store.activeBindings.rows.mergeSort fun left right => decide (left.1 ≤ right.1)).take (maxActiveBindings + 1))

def loadActiveBinding (store : ArtifactStateStore) (role : ArtifactRole) : StoreResult (Option ActiveArtifactBinding) :=
  match store.activeBindings.find role.machineName with
  | none => .ok none
  | some row => (decodeStoredBinding role.machineName row).map some

def loadQualification (store : ArtifactStateStore) (qualificationId : QualificationId) :
    StoreResult (Option QualificationRecord) :=
  match store.qualificationRecords.find qualificationId.digest with
  | none => .ok none
  | some row =>
      match row.recordJson.qualificationId with
      | .error fault => .error (.invalidQualification fault)
      | .ok found => if found = qualificationId then .ok (some row.recordJson) else .error .corruptRecord

/-- The first invalidation appended for the qualification, when there is one. -/
def loadInvalidations (store : ArtifactStateStore) (qualificationId : QualificationId) :
    StoreResult (List QualificationInvalidation) :=
  match store.qualificationInvalidations.find? fun row => row.qualificationId == qualificationId.digest with
  | none => .ok []
  | some row =>
      if QualificationInvalidation.validReason row.recordJson.reasonCode = false then .error .invalidInvalidation
      else if row.recordJson.qualificationId ≠ qualificationId ∨ row.recordJson.reasonCode ≠ row.reasonCode then
        .error .corruptRecord
      else .ok [row.recordJson]

/-- A manifest under its index, and an installation that agrees with it. -/
def validateExistingInstallation (indexedId : Digest) (manifest : Option ArtifactManifest) (installed : Option InstalledArtifact) :
    StoreResult Unit :=
  match manifest, installed with
  | none, none => .ok ()
  | none, some _ => .error .corruptRecord
  | some manifest, installed =>
      if manifest.validate ≠ .ok () then .error .corruptRecord
      else if manifest.artifactId.digest ≠ indexedId then .error .corruptRecord
      else
        match installed with
        | none => .ok ()
        | some installed =>
            if installed.validate ≠ .ok () then .error .corruptRecord
            else if installed.artifactId.digest ≠ indexedId then .error .corruptRecord
            else if installed.artifactId ≠ manifest.artifactId ∨ installed.artifactDigest ≠ manifest.artifactDigest ∨
                installed.byteSize ≠ manifest.byteSize then .error .corruptRecord
            else .ok ()

/-- An installation must be the generation that follows the latest completed removal. -/
def validateGenerations (installation : Option StoredArtifactInstallation) (removal : Option StoredArtifactRemoval) :
    StoreResult Unit :=
  match removal, installation with
  | none, none => .ok ()
  | none, some installation => if installation.epoch ≠ .first then .error .corruptRecord else .ok ()
  | some _, none => .ok ()
  | some removal, some installation =>
      if removal.phase = .prepared then .error .corruptRecord
      else if removal.phase ≠ .completed then .error .corruptRecord
      else do
        let following ← removal.selection.epoch.next
        if following ≠ installation.epoch then .error .corruptRecord else .ok ()

def validateRemovalState (indexedId : Digest) (manifest : Option ArtifactManifest)
    (installation : Option StoredArtifactInstallation) (removal : Option StoredArtifactRemoval) : StoreResult Unit := do
  validateExistingInstallation indexedId manifest (installation.map StoredArtifactInstallation.installed)
  if let some removal := removal then
    validateExistingInstallation indexedId manifest (some removal.selection.installed)
  validateGenerations installation removal

end ArtifactStateStore

end Retonr
