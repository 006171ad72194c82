import Retonr.ModelStore.Store

/-! The artifact-set tables of the state store: immutable manifests, the installed generation of each
set and the journal of its latest removal, with the transactions of a removal over them. -/

namespace Retonr
open Text Retonr.Except

/-- The generations of a set are numbered in a namespace of their own, by the same rules. -/
abbrev ArtifactSetInstallationEpoch := ArtifactInstallationEpoch

structure StoredArtifactSetInstallation where
  installed : InstalledArtifactSet
  epoch : ArtifactSetInstallationEpoch
  deriving DecidableEq

structure StoredArtifactSetRemoval where
  selection : StoredArtifactSetInstallation
  phase : ArtifactRemovalPhase
  deriving DecidableEq

def artifactSetInstallationRecordSchemaVersion : Nat := 1
def maxArtifactSetInstallationRecordBytes : Nat := 1024
def setRemovalRecordSchemaVersion : Nat := 1
def maxSetRemovalRecordBytes : Nat := 1024

structure ArtifactSetInstallationRecord where
  installationEpoch : Nat
  installed : InstalledArtifactSet
  schemaVersion : Nat

structure ArtifactSetRemovalRecord where
  installationEpoch : Nat
  installed : InstalledArtifactSet
  phase : ArtifactRemovalPhase
  schemaVersion : Nat

namespace StoredArtifactSetInstallation

def record (installation : StoredArtifactSetInstallation) : ArtifactSetInstallationRecord :=
  ⟨installation.epoch.get, installation.installed, artifactSetInstallationRecordSchemaVersion⟩

def toJson (installation : StoredArtifactSetInstallation) : Text :=
  "\x7b\x22installation_epoch\x22:".toList ++ decimal installation.epoch.get ++ ",\x22installed\x22:".toList ++
    installation.installed.canonicalJson ++ ",\x22schema_version\x22:".toList ++
    decimal artifactSetInstallationRecordSchemaVersion ++ "\x7d".toList

def encode (installation : StoredArtifactSetInstallation) : StoreResult ArtifactSetInstallationRecord :=
  if maxArtifactSetInstallationRecordBytes < byteLen installation.toJson then .error .recordTooLarge else .ok installation.record

end StoredArtifactSetInstallation

namespace StoredArtifactSetRemoval

def record (removal : StoredArtifactSetRemoval) : ArtifactSetRemovalRecord :=
  ⟨removal.selection.epoch.get, removal.selection.installed, removal.phase, setRemovalRecordSchemaVersion⟩

def toJson (removal : StoredArtifactSetRemoval) : Text :=
  "\x7b\x22installation_epoch\x22:".toList ++ decimal removal.selection.epoch.get ++ ",\x22installed\x22:".toList ++
    removal.selection.installed.canonicalJson ++ ",\x22phase\x22:\x22".toList ++ removal.phase.key ++
    "\x22,\x22schema_version\x22:".toList ++ decimal setRemovalRecordSchemaVersion ++ "\x7d".toList

def encode (removal : StoredArtifactSetRemoval) : StoreResult ArtifactSetRemovalRecord :=
  if maxSetRemovalRecordBytes < byteLen removal.toJson then .error .recordTooLarge else .ok removal.record

end StoredArtifactSetRemoval

structure InstalledSetRow where
  storageKey : Text
  installationEpoch : Int
  recordJson : ArtifactSetInstallationRecord

structure SetRemovalRow where
  installationEpoch : Int
  phase : Text
  recordJson : ArtifactSetRemovalRecord

/-- The artifact-set tables of the state database; a key is the digest of the set's identity. -/
structure ArtifactSetStore where
  artifactSetManifests : Table Digest ArtifactSetManifest
  installedArtifactSets : Table Digest InstalledSetRow
  artifactSetRemovals : Table Digest SetRemovalRow

namespace ArtifactSetStore

/-- A stored manifest is decoded and validated again, and must have the identity it is stored under. -/
def decodeManifest (artifactSetId : ArtifactSetId) (manifest : ArtifactSetManifest) : StoreResult ArtifactSetManifest := do
  require (byteLen manifest.canonicalJson ≤ maxArtifactSetManifestJsonBytes) .corruptRecord
  manifest.validate.mapError fun _ => StoreError.corruptRecord
  require (manifest.artifactSetId = artifactSetId) .corruptRecord
  .ok manifest

def loadArtifactSetManifest (store : ArtifactSetStore) (artifactSetId : ArtifactSetId) : StoreResult (Option ArtifactSetManifest) :=
  match store.artifactSetManifests.find artifactSetId.digest with
  | none => .ok none
  | some manifest => (decodeManifest artifactSetId manifest).map some

/-- The same read as it is offered to the services. -/
def artifactSetManifest (store : ArtifactSetStore) (artifactSetId : ArtifactSetId) : StoreResult (Option ArtifactSetManifest) :=
  match store.artifactSetManifests.find artifactSetId.digest with
  | none => .ok none
  | some manifest => do
      require (byteLen manifest.canonicalJson ≤ maxArtifactSetManifestJsonBytes) .recordTooLarge
      (decodeManifest artifactSetId manifest).map some

def decodeInstallation (indexedId : ArtifactSetId) (row : InstalledSetRow) (manifest : ArtifactSetManifest) :
    StoreResult StoredArtifactSetInstallation := do
  let epoch ← ArtifactInstallationEpoch.fromDatabase row.installationEpoch
  require (row.recordJson.schemaVersion = artifactSetInstallationRecordSchemaVersion ∧
    row.recordJson.installationEpoch = epoch.get) .corruptRecord
  (row.recordJson.installed.validateAgainst manifest).mapError fun _ => StoreError.corruptRecord
  require (row.recordJson.installed.artifactSetId = indexedId ∧ row.recordJson.installed.storageKey = row.storageKey) .corruptRecord
  let stored : StoredArtifactSetInstallation := ⟨row.recordJson.installed, epoch⟩
  let _ ← stored.encode
  .ok stored

def loadArtifactSetInstallation (store : ArtifactSetStore) (artifactSetId : ArtifactSetId) :
    StoreResult (Option StoredArtifactSetInstallation) :=
  match store.installedArtifactSets.find artifactSetId.digest with
  | none => .ok none
  | some row =>
      match store.artifactSetManifests.find artifactSetId.digest with
      | none => .error .corruptRecord
      | some manifest => do
          let manifest ← decodeManifest artifactSetId manifest
          (decodeInstallation artifactSetId row manifest).map some

def decodeSetRemovalRecord (indexedId : ArtifactSetId) (row : SetRemovalRow) (manifest : ArtifactSetManifest) :
    StoreResult StoredArtifactSetRemoval := do
  let epoch ← ArtifactInstallationEpoch.fromDatabase row.installationEpoch
  require (row.recordJson.schemaVersion = setRemovalRecordSchemaVersion ∧ row.recordJson.installationEpoch = epoch.get ∧
    row.recordJson.phase.key = row.phase) .corruptRecord
  (row.recordJson.installed.validateAgainst manifest).mapError fun _ => StoreError.corruptRecord
  require (row.recordJson.installed.artifactSetId = indexedId) .corruptRecord
  let stored : StoredArtifactSetRemoval := ⟨⟨row.recordJson.installed, epoch⟩, row.recordJson.phase⟩
  let _ ← stored.encode
  .ok stored

def loadSetRemovalRow (store : ArtifactSetStore) (artifactSetId : ArtifactSetId) (manifest : Option ArtifactSetManifest) :
    StoreResult (Option StoredArtifactSetRemoval) :=
  match store.artifactSetRemovals.find artifactSetId.digest, manifest with
  | none, _ => .ok none
  | some _, none => .error .corruptRecord
  | some row, some manifest => (decodeSetRemovalRecord artifactSetId row manifest).map some

/-- The manifest of an installed or removed set, with the identity everything is stored under. -/
def requireManifest (indexedId : ArtifactSetId) (manifest : Option ArtifactSetManifest) (installed : Option InstalledArtifactSet) :
    StoreResult Unit :=
  match installed, manifest with
  | none, none => .ok ()
  | none, some manifest => require (manifest.artifactSetId = indexedId) .corruptRecord
  | some _, none => .error .corruptRecord
  | some installed, some manifest => do
      require (installed.artifactSetId = indexedId ∧ manifest.artifactSetId = indexedId) .corruptRecord
      (installed.validateAgainst manifest).mapError fun _ => StoreError.corruptRecord

/-- An installation must be the generation that follows the latest completed removal. -/
def validateSetGenerations (installation : Option StoredArtifactSetInstallation) (removal : StoredArtifactSetRemoval) : StoreResult Unit :=
  match installation with
  | none => .ok ()
  | some installation => do
      require (removal.phase ≠ .prepared) .corruptRecord
      let following ← removal.selection.epoch.next
      require (following = installation.epoch) .corruptRecord

def validateSetRemovalState (indexedId : ArtifactSetId) (manifest : Option ArtifactSetManifest)
    (installation : Option StoredArtifactSetInstallation) (removal : Option StoredArtifactSetRemoval) : StoreResult Unit := do
  requireManifest indexedId manifest (installation.map StoredArtifactSetInstallation.installed)
  match removal with
  | none => require (∀ current ∈ installation, current.epoch = .first) .corruptRecord
  | some removal =>
      match manifest with
      | none => .error .corruptRecord
      | some manifest => do
          (removal.selection.installed.validateAgainst manifest).mapError fun _ => StoreError.corruptRecord
          require (removal.selection.installed.artifactSetId = indexedId) .corruptRecord
          validateSetGenerations installation removal

def loadSetRemovalState (store : ArtifactSetStore) (artifactSetId : ArtifactSetId) :
    StoreResult (Option StoredArtifactSetInstallation × Option StoredArtifactSetRemoval) := do
  let manifest ← store.loadArtifactSetManifest artifactSetId
  let installation ← store.loadArtifactSetInstallation artifactSetId
  let removal ← store.loadSetRemovalRow artifactSetId manifest
  validateSetRemovalState artifactSetId manifest installation removal
  .ok (installation, removal)

def artifactSetRemovalState (store : ArtifactSetStore) (artifactSetId : ArtifactSetId) :
    StoreResult (Option StoredArtifactSetInstallation × Option StoredArtifactSetRemoval) :=
  store.loadSetRemovalState artifactSetId

/-- Replaces the latest journal of the set; the manifest it refers to must exist. -/
def writeSetRemoval (store : ArtifactSetStore) (removal : StoredArtifactSetRemoval) : StoreResult ArtifactSetStore := do
  let recordJson ← removal.encode
  let key := removal.selection.installed.artifactSetId.digest
  let row : SetRemovalRow := ⟨removal.selection.epoch.databaseValue, removal.phase.key, recordJson⟩
  require ((store.artifactSetManifests.find key).isSome = true) .database
  .ok { store with artifactSetRemovals := store.artifactSetRemovals.upsert key row }

/-- Drops the exact installed generation. -/
def deleteInstalledSet (store : ArtifactSetStore) (selection : StoredArtifactSetInstallation) : StoreResult ArtifactSetStore := do
  let artifactSetId := selection.installed.artifactSetId.digest
  let selected (key : Digest) (row : InstalledSetRow) : Bool :=
    key == artifactSetId && row.installationEpoch == selection.epoch.databaseValue
  require ((store.installedArtifactSets.find artifactSetId).any (selected artifactSetId) = true) .staleInstallation
  .ok { store with installedArtifactSets := store.installedArtifactSets.deleteWhere selected }

/-- Records a pending set removal and revokes the installed generation. -/
def prepareArtifactSetRemoval (store : ArtifactSetStore) (selection : StoredArtifactSetInstallation) :
    StoreResult (RemovalPreparationDisposition × ArtifactSetStore) := do
  let artifactSetId := selection.installed.artifactSetId
  let found ← store.loadArtifactSetManifest artifactSetId
  match found with
  | none => .error .missingRecord
  | some manifest => do
      (selection.installed.validateAgainst manifest).mapError StoreError.invalidArtifactSetInstallation
      let (current, removal) ← store.loadSetRemovalState artifactSetId
      require (∀ installed ∈ current, installed = selection) .staleInstallation
      match removal.filter fun removal => removal.selection = selection with
      | some removal => .ok (if removal.phase = .completed then .alreadyCompleted else .alreadyPrepared, store)
      | none => do
          require (current = some selection) .staleInstallation
          let journaled ← store.writeSetRemoval ⟨selection, .prepared⟩
          let removed ← journaled.deleteInstalledSet selection
          .ok (.prepared, removed)

/-- Marks an exact prepared set removal completed. -/
def completeArtifactSetRemoval (store : ArtifactSetStore) (selection : StoredArtifactSetInstallation) :
    StoreResult (RemovalCompletionDisposition × ArtifactSetStore) := do
  let (current, found) ← store.loadSetRemovalState selection.installed.artifactSetId
  require (∀ installed ∈ current, installed = selection) .staleInstallation
  match found with
  | none => .error .missingRecord
  | some removal => do
      require (removal.selection = selection) .staleInstallation
      if removal.phase = .completed then .ok (.alreadyCompleted, store)
      else do
        require (current.isNone = true) .corruptRecord
        let completed ← store.writeSetRemoval ⟨selection, .completed⟩
        .ok (.completed, completed)

end ArtifactSetStore

end Retonr
