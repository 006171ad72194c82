import Retonr.App.ArtifactStorage

/-! Offline import of one artifact file: the source is copied to staging and hashed, linked
under its digest, verified there and then registered. -/

namespace Retonr
open Text Crash Retonr.Except

structure ArtifactImportLimits where
  (maximumArtifactBytes maximumStorageEntries : UInt64)

/-- A file chosen by the caller: what its metadata says before and after, and what the reads return. -/
structure SourceFile where
  (indirect regular : Bool)
  length : Nat
  reads : List Bytes
  finalLength : Nat

structure OfflineArtifactImportRequest where
  source : Option SourceFile
  manifest : ArtifactManifest

structure ArtifactImportResult where
  installed : InstalledArtifact
  state : InstallationWriteDisposition

inductive ArtifactImportError where
  | invalidLimits
  | invalidManifest (fault : ManifestError)
  | sourceIo
  | indirectSource
  | sourceNotRegular
  | artifactTooLarge (actual maximum : Nat)
  | sizeMismatch
  | digestMismatch
  | cancelled
  | unsafeStorageLayout
  | storageInUse
  | storageChanged
  | stagingEntryLimitExceeded
  | storageEntryLimitExceeded
  | storageIo (source : IoError)
  | storageConflict
  | state (fault : StoreError)
  | removalPending (selection : Option StoredArtifactInstallation)

namespace OfflineArtifactImport

abbrev ImportCall := Program ManagedState ArtifactImportError

def stagingPrefix : Text := ".import-".toList
def maxRecoveryEntries : Nat := 1024
def tempNameAttempts : Nat := 1024

def mapOpenError : ArtifactInventoryError → ArtifactImportError
  | .invalidLimits => .invalidLimits
  | .storageNotInitialized | .unsafeStorageLayout => .unsafeStorageLayout
  | .storageInUse => .storageInUse
  | .storageEntryLimitExceeded => .stagingEntryLimitExceeded
  | .cancelled => .cancelled
  | .storageIo source => .storageIo source
  | .state source => .state source
  | .stateEntryLimitExceeded | .totalVerificationLimitExceeded => .storageConflict
  | .concurrentModification => .storageChanged

def mapRecoveryError : ArtifactInventoryError → ArtifactImportError
  | .storageEntryLimitExceeded => .stagingEntryLimitExceeded
  | other => mapOpenError other

def mapStorageError : ArtifactInventoryError → ArtifactImportError
  | .storageEntryLimitExceeded => .storageEntryLimitExceeded
  | .storageNotInitialized | .stateEntryLimitExceeded | .totalVerificationLimitExceeded => .storageConflict
  | .concurrentModification => .storageChanged
  | other => mapOpenError other

def mapVerificationError : ExactArtifactVerificationError → ArtifactImportError
  | .boundary error => mapStorageError error
  | .missing | .aliased => .storageChanged
  | .sizeMismatch | .digestMismatch => .storageConflict

def mapStateError : StoreError → ArtifactImportError
  | .removalPending => .removalPending none
  | other => .state other

/-- Removes the staging files an interrupted import left behind. -/
def removeStaging : List (Text × DirectoryEntry) → StorageCall Unit
  | [] => pure ()
  | entry :: entries => do
      PinnedDirectory.staging.removeFile entry.1
      removeStaging entries

def recoverOwnedStaging : StorageCall Unit := do
  let entries ← PinnedDirectory.staging.rawEntries (maxRecoveryEntries + 1) .never
  Program.require (entries.length ≤ maxRecoveryEntries) .storageEntryLimitExceeded
  let reserved := entries.filter fun entry => stagingPrefix.isPrefixOf entry.1
  Program.require (∀ entry ∈ reserved, entry.2 ≠ .indirect ∧ entry.2 ≠ .other) .unsafeStorageLayout
  removeStaging reserved
  if reserved.isEmpty then pure () else PinnedDirectory.sync

/-- Opening the service recovers staging under the lock, and creates nothing that is modeled. -/
def openService (limits : ArtifactImportLimits) : ImportCall Unit := do
  Program.require (limits.maximumArtifactBytes ≠ 0 ∧ limits.maximumStorageEntries ≠ 0 ∧
    limits.maximumStorageEntries.toNat + 1 < 2 ^ 64) .invalidLimits
  recoverOwnedStaging.mapError mapRecoveryError
  validateLayout.mapError mapStorageError

def validateRequest (limits : ArtifactImportLimits) (request : OfflineArtifactImportRequest) : Except ArtifactImportError Unit := do
  request.manifest.validate.mapError ArtifactImportError.invalidManifest
  require (request.manifest.byteSize ≤ limits.maximumArtifactBytes.toNat)
    (.artifactTooLarge request.manifest.byteSize limits.maximumArtifactBytes.toNat)

def openSource (source : Option SourceFile) : ImportCall SourceFile :=
  Program.query .sourceIo fun _ =>
    match source with
    | none => .error .sourceIo
    | some file => do
        require (file.indirect = false) .indirectSource
        require (file.regular = true) .sourceNotRegular
        .ok file

/-- Tries the names in turn; one that is taken is passed over. -/
def createStagingFileWith : List Text → StorageCall (Text × Nat)
  | [] => Program.raise PinnedDirectory.io
  | name :: names => do
      let created ← Program.atomic PinnedDirectory.io fun state =>
        match state.storage.staging.find name with
        | some _ => .ok (none, state)
        | none =>
            let inode := state.storage.freshInode
            let storage : ArtifactStorage :=
              { state.storage with
                staging := state.storage.staging.upsert name (.regular inode)
                contents := Function.update state.storage.contents inode [] }
            .ok (some inode, { state with storage })
      match created with
      | some inode => pure (name, inode)
      | none => createStagingFileWith names

def createStagingFile (names : List Text) (cancellation : CancellationSource) : StorageCall (Text × Nat) := do
  let entries ← PinnedDirectory.staging.rawEntries maxRecoveryEntries cancellation
  Program.require (entries.length ≠ maxRecoveryEntries) .storageEntryLimitExceeded
  createStagingFileWith ((names.take tempNameAttempts).map (stagingPrefix ++ ·))

/-- One copied chunk; without a staging file the bytes are only hashed. -/
def writeChunk (staged : Option Nat) (chunk : Bytes) : ImportCall Unit :=
  match staged with
  | none => pure ()
  | some inode =>
      Program.call (.storageIo ⟨[]⟩)
        (fun reach state => { state with storage := state.storage.write inode (chunk.take reach) })
        (fun state => .ok ((), { state with storage := state.storage.write inode chunk }))

def copyReads (staged : Option Nat) (expectedSize : Nat) : List Bytes → Bytes → ImportCall Bytes
  | [], copied => do
      ensureNotCancelled .caller .cancelled
      Program.query .sourceIo fun _ => .ok ()
      pure copied
  | chunk :: chunks, copied => do
      ensureNotCancelled .caller .cancelled
      Program.query .sourceIo fun _ => .ok ()
      -- A read of nothing is the end of the file.
      if chunk.isEmpty then pure copied
      else do
        Program.require (copied.length + chunk.length < 2 ^ 64 ∧ copied.length + chunk.length ≤ expectedSize) .sizeMismatch
        writeChunk staged chunk
        copyReads staged expectedSize chunks (copied ++ chunk)

def copyAndHash (source : SourceFile) (staged : Option Nat) (expectedSize : Nat) : ImportCall Digest := do
  let copied ← copyReads staged expectedSize source.reads []
  Program.require (copied.length = expectedSize) .sizeMismatch
  pure (Digest.sha256 copied)

def verifySourceAfterRead (source : SourceFile) (expectedSize : Nat) : ImportCall Unit :=
  Program.query .sourceIo fun _ => require (source.finalLength = expectedSize) .sizeMismatch

/-- A staging file that is dropped before it was cleaned up is removed if that is possible. -/
def dropStaged (name : Text) (inode : Nat) : ImportCall Unit := do
  let removed ← (PinnedDirectory.staging.removeFileIfSameIdentity name inode).attempt
  match removed with
  | .error _ => pure ()
  | .ok () => do
      let _ ← PinnedDirectory.sync.attempt
      pure ()

/-- Runs a step that owns the staging file; its failure drops the file. -/
def owningStaged {α : Type} (name : Text) (inode : Nat) (step : ImportCall α) : ImportCall α := do
  let result ← step.attempt
  match result with
  | .ok value => pure value
  | .error fault => do
      dropStaged name inode
      Program.raise fault

def cleanup (name : Text) (inode : Nat) : ImportCall Unit := do
  owningStaged name inode ((PinnedDirectory.staging.removeFileIfSameIdentity name inode).mapError mapStorageError)
  PinnedDirectory.sync.mapError mapStorageError

def freezeSingleLink (inode : Nat) : ImportCall MetadataFingerprint := do
  let fingerprint ← (PinnedDirectory.fingerprintOf inode).mapError mapStorageError
  Program.require (fingerprint.hasSingleLink = true) .storageChanged
  pure fingerprint

def recheckFrozenSingleLink (name : Text) (frozen : MetadataFingerprint) : ImportCall Unit := do
  (PinnedDirectory.staging.recheckManagedFile name frozen maxRecoveryEntries .caller).mapError mapRecoveryError
  Program.require (frozen.hasSingleLink = true) .storageChanged

/-- Gives the staged file its final name, which must be free. -/
def hardLinkTo (name destinationName : Text) : ImportCall Unit :=
  Program.atomic (.storageIo ⟨[]⟩) fun state =>
    match state.storage.staging.find name, state.storage.artifacts.find destinationName with
    | _, some _ => .error .storageChanged
    | none, none => .error (.storageIo ⟨[]⟩)
    | some entry, none =>
        .ok ((), { state with storage := { state.storage with artifacts := state.storage.artifacts.upsert destinationName entry } })

def linkStaged (limits : ArtifactImportLimits) (name : Text) (frozen : MetadataFingerprint) (destinationName : Text) : ImportCall Unit := do
  ensureNotCancelled .caller .cancelled
  recheckFrozenSingleLink name frozen
  let capacity ← (PinnedDirectory.artifacts.exactEntryCapacity destinationName limits.maximumStorageEntries.toNat .caller).mapError
    mapStorageError
  match capacity with
  | .present => Program.raise .storageChanged
  | .full => Program.raise .storageEntryLimitExceeded
  | .available => do
      PinnedDirectory.touch.mapError fun _ => .storageIo ⟨[]⟩
      hardLinkTo name destinationName
      PinnedDirectory.sync.mapError mapStorageError

/-- The staging name is cleaned up whether or not the link was made. -/
def commitStaged (limits : ArtifactImportLimits) (name : Text) (inode : Nat) (frozen : MetadataFingerprint) (destinationName : Text) :
    ImportCall Unit := do
  let commit ← (linkStaged limits name frozen destinationName).attempt
  let cleaned ← (cleanup name inode).attempt
  Program.done commit
  Program.done cleaned

def installedFrom (manifest : ArtifactManifest) : InstalledArtifact where
  artifactId := manifest.artifactId
  artifactDigest := manifest.artifactDigest
  byteSize := manifest.byteSize
  storageKey := managedStorageKey manifest.artifactDigest

/-- The removal that blocks a registration while it is prepared. -/
def pendingRemoval (state : Option StoredArtifactInstallation × Option StoredArtifactRemoval) : Option StoredArtifactInstallation :=
  match state with
  | (none, some ⟨selection, .prepared⟩) => some selection
  | _ => none

/-- Copies the source, into a new staging file unless the destination exists already, and checks what was read. -/
def receiveSource (request : OfflineArtifactImportRequest) (source : SourceFile) (staged : Option Nat) : ImportCall Unit := do
  let observed ← copyAndHash source staged request.manifest.byteSize
  verifySourceAfterRead source request.manifest.byteSize
  Program.require (observed = request.manifest.artifactDigest) .digestMismatch
  ensureNotCancelled .caller .cancelled

def stageAndCommit (limits : ArtifactImportLimits) (request : OfflineArtifactImportRequest) (source : SourceFile) (names : List Text) :
    ImportCall Unit := do
  let (name, inode) ← (createStagingFile names .caller).mapError mapRecoveryError
  let frozen ← owningStaged name inode do
    receiveSource request source (some inode)
    freezeSingleLink inode
  commitStaged limits name inode frozen request.manifest.artifactDigest.asStr

/-- Copies, verifies, persists and registers one artifact file. The names are those the random source would give. -/
def importArtifact (limits : ArtifactImportLimits) (names : List Text) (request : OfflineArtifactImportRequest) :
    ImportCall ArtifactImportResult := do
  ensureNotCancelled .caller .cancelled
  validateLayout.mapError mapStorageError
  Program.done (validateRequest limits request)
  let current ← readStore .state fun store => store.artifactRemovalState request.manifest.artifactId
  match pendingRemoval current with
  | some selection => Program.raise (.removalPending (some selection))
  | none => do
      let source ← openSource request.source
      Program.require (source.length = request.manifest.byteSize) .sizeMismatch
      let destination ← (PinnedDirectory.artifacts.openManagedFile request.manifest.artifactDigest.asStr
        limits.maximumStorageEntries.toNat .caller).mapError mapStorageError
      match destination with
      | some _ => receiveSource request source none
      | none => stageAndCommit limits request source names
      ensureNotCancelled .caller .cancelled
      let _ ← (verifyExactArtifact request.manifest.artifactDigest.asStr
        ⟨request.manifest.byteSize, request.manifest.artifactDigest, limits.maximumStorageEntries.toNat⟩ .caller).mapError
        mapVerificationError
      validateLayout.mapError mapStorageError
      ensureNotCancelled .caller .cancelled
      let state ← transactStore mapStateError fun store => store.putInstallation request.manifest (installedFrom request.manifest)
      pure ⟨installedFrom request.manifest, state⟩

end OfflineArtifactImport

end Retonr
