import Retonr.App.ArtifactStorage
import Retonr.ModelStore.ArtifactSetStore

/-! The plan of one exact artifact set, with the directories its member paths need, and the check of
a listed tree against it. -/

namespace Retonr
open Text Retonr.Except

inductive ArtifactSetImportError where
  | invalidLimits
  | invalidManifest (fault : ArtifactSetManifestError)
  | invalidInstallation (fault : InstalledArtifactSetError)
  | tooManyMembers (actual maximum : Nat)
  | memberTooLarge (actual maximum : Nat)
  | artifactSetTooLarge (actual maximum : Nat)
  | sourceIo (source : IoError)
  | indirectSource
  | sourceNotDirectory
  | unsafeSourceTree
  | sourceTreeMismatch
  | sizeMismatch
  | digestMismatch
  | cancelled
  | unsafeStorageLayout
  | storageInUse
  | storageChanged
  | treeEntryLimitExceeded
  | stagingEntryLimitExceeded
  | storageEntryLimitExceeded
  | storageIo (source : IoError)
  | storageConflict
  | stateStorageMismatch
  | state (source : StoreError)

structure ArtifactSetPlanBounds where
  (members memberBytes totalBytes treeEntries : UInt64)

/-- The directories a plan needs are kept as texts in the order of a sorted set. -/
structure ValidatedSetPlan where
  artifactSetId : ArtifactSetId
  storageKey : Text
  installed : InstalledArtifactSet
  directories : List Text
  (treeEntries maximumDepth : Nat)

def validatePlanBounds (bounds : ArtifactSetPlanBounds) : Except ArtifactSetImportError Unit :=
  require ((bounds.members ≠ 0 ∧ bounds.memberBytes ≠ 0 ∧ bounds.totalBytes ≠ 0 ∧ bounds.treeEntries ≠ 0) ∧
    bounds.members.toNat + 1 < 2 ^ 64 ∧ bounds.treeEntries.toNat + 1 < 2 ^ 64) .invalidLimits

def setStorageKeyPrefix : Text := "set-v1-".toList

/-- The component lists of the directories above a path, the outermost first. -/
def properPrefixes (components : List Text) : List (List Text) := components.dropLast.inits.tail

/-- The path with these components. -/
def joinPath (components : List Text) : Text := List.intercalate ['/'] components

namespace ArtifactSetManifest

/-- Every directory above a member, once, in the order of the paths. -/
def directories (manifest : ArtifactSetManifest) : List Text :=
  ((manifest.members.flatMap fun member => (properPrefixes member.relativePath.components).map joinPath).dedup).insertionSort (· ≤ ·)

def maximumDepth (manifest : ArtifactSetManifest) : Nat :=
  (manifest.members.map fun member => member.relativePath.components.length).foldl max 1

def storageKey (manifest : ArtifactSetManifest) : Text := setStorageKeyPrefix ++ manifest.artifactSetId.digest.asStr

end ArtifactSetManifest

def planArtifactSet (manifest : ArtifactSetManifest) (bounds : ArtifactSetPlanBounds) : Except ArtifactSetImportError ValidatedSetPlan := do
  validatePlanBounds bounds
  manifest.validate.mapError ArtifactSetImportError.invalidManifest
  require (manifest.members.length ≤ bounds.members.toNat) (.tooManyMembers manifest.members.length bounds.members.toNat)
  match manifest.members.find? fun member => decide (bounds.memberBytes < member.byteSize) with
  | some member => .error (.memberTooLarge member.byteSize.toNat bounds.memberBytes.toNat)
  | none => do
      require (manifest.totalByteSize ≤ bounds.totalBytes.toNat)
        (.artifactSetTooLarge manifest.totalByteSize bounds.totalBytes.toNat)
      let treeEntries := manifest.directories.length + manifest.members.length
      require (treeEntries < 2 ^ 64 ∧ treeEntries ≤ bounds.treeEntries.toNat) .treeEntryLimitExceeded
      let installed ← (InstalledArtifactSet.new manifest manifest.storageKey).mapError ArtifactSetImportError.invalidInstallation
      .ok ⟨manifest.artifactSetId, manifest.storageKey, installed, manifest.directories, treeEntries, manifest.maximumDepth⟩

inductive ManagedTreeEntryKind where
  | directory
  | regularFile
  deriving DecidableEq

structure ManagedTreeEntry where
  relativePath : ArtifactSetRelativePath
  kind : ManagedTreeEntryKind
  byteSize : Nat
  fingerprint : MetadataFingerprint

/-- Entries in the order of their paths. -/
structure ManagedTreeSnapshot where
  rootFingerprint : MetadataFingerprint
  entries : List ManagedTreeEntry

/-- The kind and size of every entry the manifest names, by its path. -/
def expectedTree (directories : List Text) (manifest : ArtifactSetManifest) : Table Text (ManagedTreeEntryKind × Nat) :=
  manifest.members.foldl (fun expected member => expected.upsert member.relativePath.asStr (.regularFile, member.byteSize.toNat))
    (directories.foldl (fun expected directory => expected.upsert directory (.directory, 0)) .empty)

/-- Whether a listed entry is one the manifest names. -/
def matchesExpected (expected : Table Text (ManagedTreeEntryKind × Nat)) (requireSingleLink : Bool) (entry : ManagedTreeEntry) : Bool :=
  match expected.find entry.relativePath.asStr with
  | none => false
  | some (kind, size) =>
      entry.kind == kind && entry.byteSize == size &&
        (!requireSingleLink || entry.kind != .regularFile || entry.fingerprint.hasSingleLink)

def validateTreeShape (snapshot : ManagedTreeSnapshot) (manifest : ArtifactSetManifest) (plan : ValidatedSetPlan)
    (requireSingleLink source : Bool) : Except ArtifactSetImportError Unit :=
  let expected := expectedTree plan.directories manifest
  require (snapshot.entries.length = plan.treeEntries ∧ snapshot.entries.length = expected.rows.length ∧
      snapshot.entries.all (matchesExpected expected requireSingleLink) = true)
    (if source then .sourceTreeMismatch else .storageConflict)

end Retonr
