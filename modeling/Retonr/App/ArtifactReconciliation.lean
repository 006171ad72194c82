import Retonr.App.ArtifactImport

/-! Registration of one managed file that has no installation record, after it was verified again. -/

namespace Retonr
open Text Crash

structure ArtifactReconciliationLimits where
  (maximumArtifactBytes maximumStorageEntries : UInt64)

structure ArtifactOrphanReconciliationRequest where
  manifest : ArtifactManifest

inductive ArtifactReconciliationDisposition where
  | registered
  | alreadyRegistered

structure ArtifactOrphanReconciliationResult where
  installed : InstalledArtifact
  installation : StoredArtifactInstallation
  disposition : ArtifactReconciliationDisposition

inductive ArtifactReconciliationError where
  | invalidManifest (fault : ManifestError)
  | artifactTooLarge (actual maximum : Nat)
  | storageNotInitialized
  | unsafeStorageLayout
  | storageInUse
  | storageEntryLimitExceeded
  | storageChanged
  | orphanNotFound
  | storageConflict
  | cancelled
  | storageIo (source : IoError)
  | stateConflict
  | removalPending (selection : Option StoredArtifactInstallation)
  | stateCorrupt (source : StoreError)
  | state (source : StoreError)

namespace ArtifactReconciliation

abbrev ReconciliationCall := Program ManagedState ArtifactReconciliationError

def mapOpenError : ArtifactInventoryError → ArtifactReconciliationError
  | .storageNotInitialized => .storageNotInitialized
  | .unsafeStorageLayout => .unsafeStorageLayout
  | .storageInUse => .storageInUse
  | .storageIo source => .storageIo source
  | .concurrentModification => .storageChanged
  | .storageEntryLimitExceeded => .storageEntryLimitExceeded
  | .cancelled => .cancelled
  | .invalidLimits | .stateEntryLimitExceeded | .totalVerificationLimitExceeded | .state _ => .unsafeStorageLayout

def mapStorageError : ArtifactInventoryError → ArtifactReconciliationError
  | .unsafeStorageLayout | .concurrentModification | .storageNotInitialized => .storageChanged
  | other => mapOpenError other

def mapVerificationError : ExactArtifactVerificationError → ArtifactReconciliationError
  | .boundary error => mapStorageError error
  | .missing => .orphanNotFound
  | .sizeMismatch | .digestMismatch => .storageConflict
  | .aliased => .storageChanged

def mapStoreError : StoreError → ArtifactReconciliationError
  | .immutableConflict => .stateConflict
  | .removalPending => .removalPending none
  | .invalidManifest fault => .stateCorrupt (.invalidManifest fault)
  | .invalidInstallation fault => .stateCorrupt (.invalidInstallation fault)
  | .recordTooLarge => .stateCorrupt .recordTooLarge
  | .corruptRecord => .stateCorrupt .corruptRecord
  | .missingRecord => .stateCorrupt .missingRecord
  | .invalidActiveBinding => .stateCorrupt .invalidActiveBinding
  | other => .state other

def validateManifest (manifest : ArtifactManifest) (limits : ArtifactReconciliationLimits) : Except ArtifactReconciliationError Unit := do
  manifest.validate.mapError ArtifactReconciliationError.invalidManifest
  Except.require (manifest.byteSize ≤ limits.maximumArtifactBytes.toNat)
    (.artifactTooLarge manifest.byteSize limits.maximumArtifactBytes.toNat)

def dispositionOf : WriteDisposition → ArtifactReconciliationDisposition
  | .inserted => .registered
  | .alreadyPresent => .alreadyRegistered

/-- Verifies and registers one exact canonical artifact. -/
def reconcile (limits : ArtifactReconciliationLimits) (request : ArtifactOrphanReconciliationRequest) :
    ReconciliationCall ArtifactOrphanReconciliationResult := do
  ensureNotCancelled .caller .cancelled
  Program.done (validateManifest request.manifest limits)
  validateLayout.mapError mapStorageError
  let current ← readStore mapStoreError fun store => store.artifactRemovalState request.manifest.artifactId
  match OfflineArtifactImport.pendingRemoval current with
  | some selection => Program.raise (.removalPending (some selection))
  | none => do
      ensureNotCancelled .caller .cancelled
      ensureNotCancelled .caller .cancelled
      let _ ← (verifyExactArtifact request.manifest.artifactDigest.asStr
        ⟨request.manifest.byteSize, request.manifest.artifactDigest, limits.maximumStorageEntries.toNat⟩ .caller).mapError
        mapVerificationError
      validateLayout.mapError mapStorageError
      ensureNotCancelled .caller .cancelled
      let installed := OfflineArtifactImport.installedFrom request.manifest
      let state ← transactStore mapStoreError fun store => store.putInstallation request.manifest installed
      pure ⟨installed, state.installation, dispositionOf state.installed⟩

end ArtifactReconciliation

end Retonr
