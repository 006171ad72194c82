import Retonr.Lib.Crash
import Retonr.ModelStore.Store

/-! Managed artifact storage: a directory of final files named by their digests and a directory
of staging files, with the checked opens, verifications and removals over them. Every system call
and every transaction of the state store is one call of the program. -/

namespace Retonr
open Text Crash

/-- A failed system call and the operations it was annotated with, outermost first. -/
structure IoError where
  context : List Text

inductive ArtifactInventoryError where
  | invalidLimits
  | storageNotInitialized
  | unsafeStorageLayout
  | storageInUse
  | stateEntryLimitExceeded
  | storageEntryLimitExceeded
  | totalVerificationLimitExceeded
  | concurrentModification
  | cancelled
  | storageIo (source : IoError)
  | state (source : StoreError)

inductive DirectoryEntry where
  | regular (inode : Nat)
  | indirect
  | other
  deriving DecidableEq

/-- The two managed directories. -/
inductive PinnedDirectory where
  | artifacts
  | staging

structure ArtifactStorage where
  (artifacts staging : Table Text DirectoryEntry)
  contents : Nat → Bytes

structure MetadataFingerprint where
  (inode length linkCount : Nat)
  deriving DecidableEq

namespace MetadataFingerprint

def hasSingleLink (fingerprint : MetadataFingerprint) : Bool := fingerprint.linkCount == 1

def sameIdentity (left right : MetadataFingerprint) : Bool := left.inode == right.inode

end MetadataFingerprint

namespace ArtifactStorage

def directory (storage : ArtifactStorage) : PinnedDirectory → Table Text DirectoryEntry
  | .artifacts => storage.artifacts
  | .staging => storage.staging

def withDirectory (storage : ArtifactStorage) (entries : Table Text DirectoryEntry) : PinnedDirectory → ArtifactStorage
  | .artifacts => { storage with artifacts := entries }
  | .staging => { storage with staging := entries }

def rows (storage : ArtifactStorage) : List (Text × DirectoryEntry) := storage.artifacts.rows ++ storage.staging.rows

/-- The number of names under which a file is reached. -/
def linkCount (storage : ArtifactStorage) (inode : Nat) : Nat := storage.rows.countP fun entry => entry.2 == .regular inode

def fingerprint (storage : ArtifactStorage) (inode : Nat) : MetadataFingerprint :=
  ⟨inode, (storage.contents inode).length, storage.linkCount inode⟩

def inodes (storage : ArtifactStorage) : List Nat :=
  storage.rows.filterMap fun entry =>
    match entry.2 with
    | .regular inode => some inode
    | _ => none

/-- A number that no name refers to yet. -/
def freshInode (storage : ArtifactStorage) : Nat := storage.inodes.foldr max 0 + 1

def write (storage : ArtifactStorage) (inode : Nat) (bytes : Bytes) : ArtifactStorage :=
  { storage with contents := Function.update storage.contents inode (storage.contents inode ++ bytes) }

def remove (storage : ArtifactStorage) (directory : PinnedDirectory) (name : Text) : ArtifactStorage :=
  storage.withDirectory ((storage.directory directory).deleteWhere fun key _ => key == name) directory

end ArtifactStorage

/-- The managed bytes and the durable lifecycle state. -/
structure ManagedState where
  storage : ArtifactStorage
  store : ArtifactStateStore

/-- Whose cancellation is asked for: the caller's, or a fresh token that is never raised. -/
inductive CancellationSource where
  | caller
  | never

def managedStorageKey (digest : Digest) : Text := "artifacts/".toList ++ digest.asStr

def ensureNotCancelled {σ ε : Type} (cancellation : CancellationSource) (fault : ε) : Program σ ε Unit :=
  match cancellation with
  | .never => pure ()
  | .caller => do
      let cancelled ← Program.poll
      Program.require (cancelled = false) fault

abbrev StorageCall := Program ManagedState ArtifactInventoryError

namespace PinnedDirectory

def io : ArtifactInventoryError := .storageIo ⟨[]⟩

/-- A system call that cannot be told from the state: it succeeds unless it fails. -/
def touch {σ : Type} : Program σ ArtifactInventoryError Unit := Program.query io fun _ => .ok ()

def sync {σ : Type} : Program σ ArtifactInventoryError Unit := touch

/-- Reads the entries of a directory one by one. -/
def scanEntries {σ α : Type} (maximumEntries : Nat) (cancellation : CancellationSource) :
    List α → List α → Program σ ArtifactInventoryError (List α)
  | [], result => pure result
  | entry :: entries, result => do
      ensureNotCancelled cancellation .cancelled
      touch
      Program.require (result.length ≠ maximumEntries) .storageEntryLimitExceeded
      touch
      scanEntries maximumEntries cancellation entries (result ++ [entry])

def rawEntries (directory : PinnedDirectory) (maximumEntries : Nat) (cancellation : CancellationSource) :
    StorageCall (List (Text × DirectoryEntry)) := do
  let entries ← Program.query io fun state => .ok (state.storage.directory directory).rows
  scanEntries maximumEntries cancellation entries []

/-- Whether the name is there, and whether the directory is as full as allowed. -/
def hasExactEntryName (directory : PinnedDirectory) (expected : Text) (maximumEntries : Nat) (cancellation : CancellationSource) :
    StorageCall (Bool × Bool) := do
  let entries ← directory.rawEntries maximumEntries cancellation
  pure (entries.any fun entry => entry.1 == expected, entries.length == maximumEntries)

def inspectEntry (directory : PinnedDirectory) (name : Text) : StorageCall (Option DirectoryEntry) :=
  Program.query io fun state => .ok ((state.storage.directory directory).find name)

/-- The fingerprint of an open file. -/
def fingerprintOf (inode : Nat) : StorageCall MetadataFingerprint :=
  Program.query io fun state => .ok (state.storage.fingerprint inode)

/-- Opens the entry, unless it has gone since it was inspected. -/
def openManagedFileByNameWithEntry (directory : PinnedDirectory) (name : Text) (entry : DirectoryEntry) :
    StorageCall (Option MetadataFingerprint) :=
  match entry with
  | .indirect | .other => Program.raise .unsafeStorageLayout
  | .regular inspected => do
      let opened ← Program.query io fun state =>
        match (state.storage.directory directory).find name with
        | none => .ok none
        | some (.regular inode) => .ok (some inode)
        | some _ => .error .unsafeStorageLayout
      let length ← Program.query io fun state => .ok (state.storage.contents inspected).length
      match opened with
      | none => pure none
      | some inode => do
          let fingerprint ← fingerprintOf inode
          Program.require (fingerprint.length = length) .concurrentModification
          pure (some fingerprint)

def openManagedFileByName (directory : PinnedDirectory) (name : Text) : StorageCall (Option MetadataFingerprint) := do
  let found ← directory.inspectEntry name
  match found with
  | none => pure none
  | some entry => directory.openManagedFileByNameWithEntry name entry

def openManagedFile (directory : PinnedDirectory) (name : Text) (maximumEntries : Nat) (cancellation : CancellationSource) :
    StorageCall (Option MetadataFingerprint) := do
  let (hasExactName, atCapacity) ← directory.hasExactEntryName name maximumEntries cancellation
  if hasExactName = false then do
    Program.require (atCapacity = false) .storageEntryLimitExceeded
    let found ← directory.inspectEntry name
    Program.require (found = none) .concurrentModification
    pure none
  else do
    let found ← directory.inspectEntry name
    match found with
    | none => Program.raise .concurrentModification
    | some entry => directory.openManagedFileByNameWithEntry name entry

def recheckManagedFile (directory : PinnedDirectory) (name : Text) (expected : MetadataFingerprint) (maximumEntries : Nat)
    (cancellation : CancellationSource) : StorageCall Unit := do
  let current ← directory.openManagedFile name maximumEntries cancellation
  Program.require (current = some expected) .concurrentModification

def removeFile (directory : PinnedDirectory) (name : Text) : StorageCall Unit :=
  Program.atomic io fun state =>
    match (state.storage.directory directory).find name with
    | none => .error .concurrentModification
    | some _ => .ok ((), { state with storage := state.storage.remove directory name })

def childFileFingerprint (directory : PinnedDirectory) (name : Text) : StorageCall MetadataFingerprint :=
  Program.query io fun state =>
    match (state.storage.directory directory).find name with
    | some (.regular inode) => .ok (state.storage.fingerprint inode)
    | _ => .error .concurrentModification

/-- Unlinks the name once more found to refer to the held file. -/
def removeVerifiedFile (directory : PinnedDirectory) (name : Text) (held : Nat) : StorageCall Unit := do
  let expected ← fingerprintOf held
  let current ← directory.childFileFingerprint name
  Program.require (current.sameIdentity expected = true) .concurrentModification
  directory.removeFile name

def removeHeldManagedFile (directory : PinnedDirectory) (name : Text) (expected : MetadataFingerprint) (maximumEntries : Nat) :
    StorageCall Unit := do
  let current ← fingerprintOf expected.inode
  Program.require (current = expected ∧ current.hasSingleLink = true) .concurrentModification
  let reopened ← directory.openManagedFile name maximumEntries .never
  Program.require (reopened = some expected) .concurrentModification
  directory.removeVerifiedFile name expected.inode
  let left ← directory.openManagedFileByName name
  Program.require (left = none) .concurrentModification

def confirmManagedFileAbsent (directory : PinnedDirectory) (name : Text) (maximumEntries : Nat) : StorageCall Unit := do
  let (hasExactName, _) ← directory.hasExactEntryName name maximumEntries .never
  let found ← directory.inspectEntry name
  Program.require (hasExactName = false ∧ found = none) .concurrentModification

def removeFileIfSameIdentity (directory : PinnedDirectory) (name : Text) (held : Nat) : StorageCall Unit := do
  let expected ← fingerprintOf held
  let current ← directory.openManagedFileByName name
  match current with
  | none => Program.raise .concurrentModification
  | some current => do
      Program.require (current.sameIdentity expected = true) .concurrentModification
      directory.removeFile name

inductive ExactEntryCapacity where
  | present
  | available
  | full

def exactEntryCapacity (directory : PinnedDirectory) (expected : Text) (maximumEntries : Nat) (cancellation : CancellationSource) :
    StorageCall ExactEntryCapacity := do
  let (present, full) ← directory.hasExactEntryName expected maximumEntries cancellation
  pure (if present then .present else if full then .full else .available)

end PinnedDirectory

/-- The layout of the managed root does not change under the exclusive lock. -/
def validateLayout {σ : Type} : Program σ ArtifactInventoryError Unit := PinnedDirectory.touch

def verifyBufferBytes : Nat := 1024 * 1024

/-- How many bytes each read of a file of this length returns. -/
def readSizes (length : Nat) : List Nat :=
  List.replicate (length / verifyBufferBytes) verifyBufferBytes ++
    if length % verifyBufferBytes = 0 then [] else [length % verifyBufferBytes]

inductive ExactArtifactVerificationError where
  | boundary (error : ArtifactInventoryError)
  | missing
  | sizeMismatch
  | digestMismatch
  | aliased

abbrev VerificationCall := Program ManagedState ExactArtifactVerificationError

def hashReads (expectedSize : Nat) (cancellation : CancellationSource) : List Nat → Nat → VerificationCall Nat
  | [], observedSize => do
      ensureNotCancelled cancellation (.boundary .cancelled)
      PinnedDirectory.touch.mapError .boundary
      pure observedSize
  | count :: counts, observedSize => do
      ensureNotCancelled cancellation (.boundary .cancelled)
      PinnedDirectory.touch.mapError .boundary
      Program.require (observedSize + count < 2 ^ 64 ∧ observedSize + count ≤ expectedSize) .sizeMismatch
      ensureNotCancelled cancellation (.boundary .cancelled)
      hashReads expectedSize cancellation counts (observedSize + count)

def hashExact (inode expectedSize : Nat) (cancellation : CancellationSource) : VerificationCall Digest := do
  let content ← Program.query (.boundary PinnedDirectory.io) fun state => .ok (state.storage.contents inode)
  let observedSize ← hashReads expectedSize cancellation (readSizes content.length) 0
  Program.require (observedSize = expectedSize) .sizeMismatch
  pure (Digest.sha256 content)

structure ExactArtifactExpectation where
  byteSize : Nat
  digest : Digest
  maximumEntries : Nat

inductive VerificationMode where
  | synchronized
  | removal
  | readOnly
  deriving DecidableEq

def syncIf (enabled : Bool) : VerificationCall Unit := if enabled then PinnedDirectory.sync.mapError .boundary else pure ()

/-- The file is held open by its inode while its fingerprint is compared. -/
def verifyExactArtifactWith (name : Text) (expectation : ExactArtifactExpectation) (cancellation : CancellationSource)
    (mode : VerificationMode) : VerificationCall MetadataFingerprint := do
  let found ← (PinnedDirectory.artifacts.openManagedFile name expectation.maximumEntries cancellation).mapError .boundary
  match found with
  | none => Program.raise .missing
  | some managed => do
      Program.require (managed.length = expectation.byteSize) .sizeMismatch
      Program.require (managed.hasSingleLink = true) .aliased
      let observed ← (hashExact managed.inode expectation.byteSize cancellation).attempt
      let afterHash ← (PinnedDirectory.fingerprintOf managed.inode).mapError .boundary
      Program.require (afterHash = managed ∧ afterHash.hasSingleLink = true) (.boundary .concurrentModification)
      let observed ← Program.done observed
      Program.require (observed = expectation.digest) .digestMismatch
      syncIf (mode == .synchronized)
      (PinnedDirectory.artifacts.recheckManagedFile name managed expectation.maximumEntries cancellation).mapError .boundary
      syncIf (mode != .readOnly)
      pure managed

def verifyExactArtifact (name : Text) (expectation : ExactArtifactExpectation) (cancellation : CancellationSource) :
    VerificationCall MetadataFingerprint := verifyExactArtifactWith name expectation cancellation .synchronized

def verifyExactArtifactForRemoval (name : Text) (expectation : ExactArtifactExpectation) (cancellation : CancellationSource) :
    VerificationCall MetadataFingerprint := verifyExactArtifactWith name expectation cancellation .removal

namespace VerifiedManagedArtifact

def recheckForRemoval (verified : MetadataFingerprint) (name : Text) (maximumEntries : Nat) : StorageCall Unit := do
  let current ← PinnedDirectory.fingerprintOf verified.inode
  Program.require (current = verified ∧ current.hasSingleLink = true) .concurrentModification
  PinnedDirectory.artifacts.recheckManagedFile name verified maximumEntries .never

def recheckAndRemove (verified : MetadataFingerprint) (name : Text) (maximumEntries : Nat) : StorageCall Unit := do
  let current ← PinnedDirectory.fingerprintOf verified.inode
  Program.require (current = verified ∧ current.hasSingleLink = true) .concurrentModification
  PinnedDirectory.artifacts.removeHeldManagedFile name verified maximumEntries

end VerifiedManagedArtifact

/-- One transaction of the state store, with the error its caller makes of a failure. -/
def transactStore {ε α : Type} (convert : StoreError → ε)
    (operation : ArtifactStateStore → StoreResult (α × ArtifactStateStore)) : Program ManagedState ε α :=
  Program.atomic (convert .database) fun state =>
    match operation state.store with
    | .ok (value, store) => .ok (value, { state with store })
    | .error fault => .error (convert fault)

/-- A read-only transaction. -/
def readStore {ε α : Type} (convert : StoreError → ε) (operation : ArtifactStateStore → StoreResult α) : Program ManagedState ε α :=
  Program.query (convert .database) fun state => (operation state.store).mapError convert

end Retonr
