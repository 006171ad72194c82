import Retonr.App.ArtifactStorage

/-! Removal of one exact installed generation: the bytes are verified, the removal is prepared
in the state store, the file is unlinked and the removal completed. A prepared removal is resumed. -/

namespace Retonr
open Text Crash

structure ArtifactRemovalLimits where
  (maximumArtifactBytes maximumStorageEntries : UInt64)

structure ArtifactRemovalRequest where
  selection : StoredArtifactInstallation

inductive ArtifactRemovalDisposition where
  | removed
  | recovered
  | alreadyRemoved

structure ArtifactRemovalResult where
  selection : StoredArtifactInstallation
  disposition : ArtifactRemovalDisposition

/-- A failure after preparation that leaves an exact removal to retry. -/
inductive ArtifactRemovalRecoveryError where
  | storage
  | storageIo (source : IoError)
  | state (source : StoreError)

inductive ArtifactRemovalError where
  | invalidLimits
  | invalidSelection
  | artifactTooLarge (actual maximum : Nat)
  | storageNotInitialized
  | unsafeStorageLayout
  | storageInUse
  | storageEntryLimitExceeded
  | staleSelection
  | activeArtifact
  | bytesMissing
  | storageConflict
  | storageChanged
  | cancelled
  | storageIo (source : IoError)
  | stateCorrupt (source : StoreError)
  | state (source : StoreError)
  | recoveryRequired (source : ArtifactRemovalRecoveryError)

namespace ArtifactRemoval

abbrev RemovalCall := Program ManagedState ArtifactRemovalError

def mapOpenError : ArtifactInventoryError → ArtifactRemovalError
  | .storageNotInitialized => .storageNotInitialized
  | .unsafeStorageLayout | .invalidLimits | .stateEntryLimitExceeded | .totalVerificationLimitExceeded | .state _ =>
      .unsafeStorageLayout
  | .storageInUse => .storageInUse
  | .storageEntryLimitExceeded => .storageEntryLimitExceeded
  | .cancelled => .cancelled
  | .storageIo source => .storageIo source
  | .concurrentModification => .storageChanged

def mapStorageError : ArtifactInventoryError → ArtifactRemovalError
  | .concurrentModification | .storageNotInitialized | .unsafeStorageLayout => .storageChanged
  | other => mapOpenError other

def mapVerificationError : ExactArtifactVerificationError → ArtifactRemovalError
  | .boundary error => mapStorageError error
  | .missing => .bytesMissing
  | .sizeMismatch | .digestMismatch => .storageConflict
  | .aliased => .storageChanged

def mapStoreError : StoreError → ArtifactRemovalError
  | .activeArtifact => .activeArtifact
  | .staleInstallation | .missingRecord => .staleSelection
  | .invalidManifest fault => .stateCorrupt (.invalidManifest fault)
  | .invalidInstallation fault => .stateCorrupt (.invalidInstallation fault)
  | .recordTooLarge => .stateCorrupt .recordTooLarge
  | .corruptRecord => .stateCorrupt .corruptRecord
  | .invalidActiveBinding => .stateCorrupt .invalidActiveBinding
  | other => .state other

def mapRecoveryStorageError : ArtifactInventoryError → ArtifactRemovalRecoveryError
  | .storageIo source => .storageIo source
  | _ => .storage

def mapPreparedError : ArtifactRemovalError → ArtifactRemovalError
  | .storageIo source => .recoveryRequired (.storageIo source)
  | _ => .recoveryRequired .storage

def annotateStorageError (operation : Text) : ArtifactInventoryError → ArtifactInventoryError
  | .storageIo source => .storageIo ⟨operation :: source.context⟩
  | other => other

def validateRequest (request : ArtifactRemovalRequest) : Except ArtifactRemovalError Unit := do
  request.selection.installed.validate.mapError fun _ => ArtifactRemovalError.invalidSelection
  Except.require (request.selection.epoch.get ≠ 0) .invalidSelection
  Except.require (request.selection.installed.storageKey = managedStorageKey request.selection.installed.artifactDigest) .invalidSelection

/-- Verifies the exact bytes. Only a removal that is already prepared may find them gone. -/
def verify (limits : ArtifactRemovalLimits) (request : ArtifactRemovalRequest) (recovering : Bool) :
    RemovalCall (Option MetadataFingerprint) := do
  let verified ← (verifyExactArtifactForRemoval request.selection.installed.artifactDigest.asStr
    ⟨request.selection.installed.byteSize, request.selection.installed.artifactDigest, limits.maximumStorageEntries.toNat⟩
    (if recovering then .never else .caller)).attempt
  match verified with
  | .ok verified => pure (some verified)
  | .error .missing => if recovering then pure none else Program.raise .bytesMissing
  | .error error => Program.raise (mapVerificationError error)

/-- Unlinks the verified file, or confirms that there is none, and makes that durable. -/
def unlinkPrepared (limits : ArtifactRemovalLimits) (name : Text) (verified : Option MetadataFingerprint) : StorageCall Unit := do
  match verified with
  | some verified =>
      (VerifiedManagedArtifact.recheckAndRemove verified name limits.maximumStorageEntries.toNat).mapError
        (annotateStorageError "unlink".toList)
  | none => PinnedDirectory.artifacts.confirmManagedFileAbsent name limits.maximumStorageEntries.toNat
  PinnedDirectory.sync.mapError (annotateStorageError "directory sync".toList)
  validateLayout.mapError (annotateStorageError "layout recheck".toList)

def finishPrepared (limits : ArtifactRemovalLimits) (request : ArtifactRemovalRequest) (verified : Option MetadataFingerprint) :
    RemovalCall Unit := do
  (unlinkPrepared limits request.selection.installed.artifactDigest.asStr verified).mapError fun error =>
    .recoveryRequired (mapRecoveryStorageError error)
  let _ ← transactStore (fun fault => .recoveryRequired (.state fault)) fun store => store.completeArtifactRemoval request.selection
  pure ()

/-- The last checks before a removal that is not yet prepared. -/
def recheckBeforePreparation (limits : ArtifactRemovalLimits) (name : Text) (verified : Option MetadataFingerprint) : RemovalCall Unit := do
  ensureNotCancelled .caller .cancelled
  validateLayout.mapError mapStorageError
  match verified with
  | none => pure ()
  | some verified =>
      (VerifiedManagedArtifact.recheckForRemoval verified name limits.maximumStorageEntries.toNat).mapError mapStorageError

/-- Whether the journal holds this very selection in this phase. -/
def inPhase (removal : Option StoredArtifactRemoval) (selection : StoredArtifactInstallation) (phase : ArtifactRemovalPhase) : Bool :=
  decide (removal = some ⟨selection, phase⟩)

def removePrepared (limits : ArtifactRemovalLimits) (request : ArtifactRemovalRequest) (recovering : Bool) :
    RemovalCall ArtifactRemovalResult := do
  let name := request.selection.installed.artifactDigest.asStr
  let verified ← (verify limits request recovering).mapError fun error => if recovering then mapPreparedError error else error
  if recovering then pure () else recheckBeforePreparation limits name verified
  let preparation ← transactStore mapStoreError fun store => store.prepareArtifactRemoval request.selection
  if preparation = .alreadyCompleted then pure ⟨request.selection, .alreadyRemoved⟩
  else do
    finishPrepared limits request verified
    pure ⟨request.selection, if recovering then .recovered else .removed⟩

/-- Removes or resumes removal of one exact installed artifact generation. -/
def remove (limits : ArtifactRemovalLimits) (request : ArtifactRemovalRequest) : RemovalCall ArtifactRemovalResult := do
  Program.done (validateRequest request)
  validateLayout.mapError mapStorageError
  let (current, removal) ← readStore mapStoreError fun store => store.artifactRemovalState request.selection.installed.artifactId
  if inPhase removal request.selection .completed then pure ⟨request.selection, .alreadyRemoved⟩
  else do
    let recovering := inPhase removal request.selection .prepared
    Program.require (request.selection.installed.byteSize ≤ limits.maximumArtifactBytes.toNat)
      (if recovering then .recoveryRequired .storage
        else .artifactTooLarge request.selection.installed.byteSize limits.maximumArtifactBytes.toNat)
    Program.require (recovering = true ∨ current = some request.selection) .staleSelection
    if recovering then pure ()
    else do
      ensureNotCancelled .caller .cancelled
      ensureNotCancelled .caller .cancelled
    removePrepared limits request recovering

end ArtifactRemoval

end Retonr
