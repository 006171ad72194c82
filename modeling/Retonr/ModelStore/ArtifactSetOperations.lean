import Retonr.Model.ArtifactSetJson
import Retonr.ModelStore.ArtifactSetStore

/-! The other operations on the artifact-set tables: storing a manifest, installing a set under a
storage key that no other set may be using, and listing the prepared removals. A statement that
would break a constraint of the schema is a database error. -/

namespace Retonr
open Text Retonr.Except

structure ArtifactSetInstallationWriteDisposition where
  (manifest installed : WriteDisposition)
  installation : StoredArtifactSetInstallation

/-- The key without trailing spaces and dots, in lower case: what a file system may take for the same name. -/
def storageAlias (storageKey : Text) : Text := toAsciiLowercase (storageKey.rdropWhile fun char => char == ' ' || char == '.')

namespace ArtifactSetStore

def empty : ArtifactSetStore := ⟨.empty, .empty, .empty⟩

/-- Stores the canonical text of a manifest, within the bound that the schema puts on it. -/
def insertManifest (store : ArtifactSetStore) (manifest : ArtifactSetManifest) : StoreResult (WriteDisposition × ArtifactSetStore) := do
  require (byteLen manifest.canonicalJson ≤ maxArtifactSetManifestJsonBytes) .database
  let (disposition, artifactSetManifests) ←
    ArtifactStateStore.insertImmutable store.artifactSetManifests manifest.artifactSetId.digest manifest
  .ok (disposition, { store with artifactSetManifests })

def putArtifactSetManifest (scanner : Json.Scanner) (store : ArtifactSetStore) (manifest : ArtifactSetManifest) :
    StoreResult (WriteDisposition × ArtifactSetStore) := do
  manifest.validate.mapError StoreError.invalidArtifactSet
  let parsed ← (ArtifactSetManifest.fromJsonBytes scanner (encode manifest.canonicalJson)).mapError StoreError.invalidArtifactSet
  require (parsed = manifest) .corruptRecord
  store.insertManifest manifest

/-- The rows whose key has the same alias, at most two of them, in the order of their identities. -/
def aliasedRows (store : ArtifactSetStore) (storageKey : Text) : List (Digest × InstalledSetRow) :=
  let aliased := store.installedArtifactSets.rows.filter fun entry => storageAlias entry.2.storageKey == storageAlias storageKey
  (aliased.mergeSort fun left right => decide (left.1.asStr ≤ right.1.asStr)).take 2

def loadArtifactSetInstallationByStorageKey (store : ArtifactSetStore) (storageKey : Text) :
    StoreResult (Option StoredArtifactSetInstallation) :=
  match store.aliasedRows storageKey with
  | [] => .ok none
  | [(indexedId, _)] => do
      let found ← store.loadArtifactSetInstallation ⟨indexedId⟩
      require (found.isSome = true) .corruptRecord
      .ok found
  | _ => .error .corruptRecord

/-- A prepared removal blocks the installation until it is completed. -/
def requireNotPending (existing : Option StoredArtifactSetInstallation) (removal : Option StoredArtifactSetRemoval) : StoreResult Unit :=
  match removal, existing with
  | none, _ => .ok ()
  | some removal, none => require (removal.phase ≠ .prepared) .removalPending
  | some removal, some existing => require (removal.phase ≠ .prepared ∧ removal.selection.epoch.get < existing.epoch.get) .corruptRecord

/-- The generation a fresh installation receives. -/
def nextGeneration (removal : Option StoredArtifactSetRemoval) : StoreResult ArtifactSetInstallationEpoch :=
  match removal with
  | none => .ok .first
  | some removal => removal.selection.epoch.next

def ensureManifest (store : ArtifactSetStore) (existing : Option ArtifactSetManifest) (manifest : ArtifactSetManifest) :
    StoreResult (WriteDisposition × ArtifactSetStore) :=
  match existing with
  | some _ => .ok (.alreadyPresent, store)
  | none => store.insertManifest manifest

/-- Inserts the installed generation. The manifest must exist, and no other row may have the identity or, in either case of its letters,
the storage key. -/
def insertInstalledSet (store : ArtifactSetStore) (installation : StoredArtifactSetInstallation) : StoreResult ArtifactSetStore := do
  let recordJson ← installation.encode
  let key := installation.installed.artifactSetId.digest
  let row : InstalledSetRow := ⟨installation.installed.storageKey, installation.epoch.databaseValue, recordJson⟩
  require ((store.artifactSetManifests.find key).isSome = true) .database
  require (∀ entry ∈ store.installedArtifactSets.rows, eqIgnoreAsciiCase entry.2.storageKey row.storageKey = false) .database
  match store.installedArtifactSets.insert key row with
  | none => .error .database
  | some installedArtifactSets => .ok { store with installedArtifactSets }

def ensureInstallation (store : ArtifactSetStore) (existing : Option StoredArtifactSetInstallation) (removal : Option StoredArtifactSetRemoval)
    (installed : InstalledArtifactSet) : StoreResult (WriteDisposition × StoredArtifactSetInstallation × ArtifactSetStore) :=
  match existing with
  | some existing => .ok (.alreadyPresent, existing, store)
  | none => do
      let epoch ← nextGeneration removal
      let written ← store.insertInstalledSet ⟨installed, epoch⟩
      .ok (.inserted, ⟨installed, epoch⟩, written)

def putArtifactSetInstallation (store : ArtifactSetStore) (manifest : ArtifactSetManifest) (installed : InstalledArtifactSet) :
    StoreResult (ArtifactSetInstallationWriteDisposition × ArtifactSetStore) := do
  manifest.validate.mapError StoreError.invalidArtifactSet
  (installed.validateAgainst manifest).mapError StoreError.invalidArtifactSetInstallation
  let existingManifest ← store.loadArtifactSetManifest manifest.artifactSetId
  let existing ← store.loadArtifactSetInstallation manifest.artifactSetId
  let (_, removal) ← store.loadSetRemovalState manifest.artifactSetId
  validateSetRemovalState manifest.artifactSetId existingManifest existing removal
  requireNotPending existing removal
  let storageOwner ← store.loadArtifactSetInstallationByStorageKey installed.storageKey
  require ((∀ other ∈ existingManifest, other = manifest) ∧ ∀ other ∈ existing, other.installed = installed) .immutableConflict
  require (∀ owner ∈ storageOwner, owner.installed.artifactSetId = manifest.artifactSetId) .immutableConflict
  let (manifestDisposition, described) ← store.ensureManifest existingManifest manifest
  let (installedDisposition, installation, written) ← described.ensureInstallation existing removal installed
  let reloaded ← written.loadArtifactSetInstallation manifest.artifactSetId
  require (reloaded = some installation) .corruptRecord
  .ok (⟨manifestDisposition, installedDisposition, installation⟩, written)

/-- Revalidates one journal; the answer is its selection while the removal is prepared. -/
def inspectRemoval (store : ArtifactSetStore) (artifactSetId : ArtifactSetId) (row : SetRemovalRow) :
    StoreResult (Option StoredArtifactSetInstallation) := do
  let found ← store.loadArtifactSetManifest artifactSetId
  match found with
  | none => .error .corruptRecord
  | some manifest => do
      let removal ← decodeSetRemovalRecord artifactSetId row manifest
      let (installation, current) ← store.loadSetRemovalState artifactSetId
      require (current = some removal) .corruptRecord
      validateSetRemovalState artifactSetId (some manifest) installation (some removal)
      if removal.phase = .prepared then do
        require (installation.isNone = true) .corruptRecord
        .ok (some removal.selection)
      else .ok none

def inspectRemovals (store : ArtifactSetStore) (maximumEntries : Nat) : Nat → List (Digest × SetRemovalRow) →
    StoreResult (List StoredArtifactSetInstallation)
  | _, [] => .ok []
  | inspected, (indexedId, row) :: rows => do
      require (inspected ≠ maximumEntries) .inventoryLimitExceeded
      let pending ← store.inspectRemoval ⟨indexedId⟩ row
      let others ← store.inspectRemovals maximumEntries (inspected + 1) rows
      .ok (pending.toList ++ others)

/-- Every prepared set removal in the order of the identities. -/
def pendingArtifactSetRemovals (store : ArtifactSetStore) (maximumEntries : Nat) : StoreResult (List StoredArtifactSetInstallation) := do
  require (maximumEntries ≠ 0 ∧ maximumEntries + 1 ≤ i64Max) .invalidLimit
  let rows := store.artifactSetRemovals.rows.mergeSort fun left right => decide (left.1.asStr ≤ right.1.asStr)
  store.inspectRemovals maximumEntries 0 (rows.take (maximumEntries + 1))

end ArtifactSetStore

/-- One mutating call on the artifact-set tables. -/
inductive SetStoreCall where
  | putArtifactSetManifest (manifest : ArtifactSetManifest)
  | putArtifactSetInstallation (manifest : ArtifactSetManifest) (installed : InstalledArtifactSet)
  | prepareArtifactSetRemoval (selection : StoredArtifactSetInstallation)
  | completeArtifactSetRemoval (selection : StoredArtifactSetInstallation)

inductive SetStoreReply where
  | written (disposition : WriteDisposition)
  | installed (disposition : ArtifactSetInstallationWriteDisposition)
  | removalPrepared (disposition : RemovalPreparationDisposition)
  | removalCompleted (disposition : RemovalCompletionDisposition)

namespace ArtifactSetStore

def transact (scanner : Json.Scanner) (store : ArtifactSetStore) : SetStoreCall → StoreResult (SetStoreReply × ArtifactSetStore)
  | .putArtifactSetManifest manifest =>
      (store.putArtifactSetManifest scanner manifest).map fun (disposition, store) => (.written disposition, store)
  | .putArtifactSetInstallation manifest installed =>
      (store.putArtifactSetInstallation manifest installed).map fun (disposition, store) => (.installed disposition, store)
  | .prepareArtifactSetRemoval selection =>
      (store.prepareArtifactSetRemoval selection).map fun (disposition, store) => (.removalPrepared disposition, store)
  | .completeArtifactSetRemoval selection =>
      (store.completeArtifactSetRemoval selection).map fun (disposition, store) => (.removalCompleted disposition, store)

/-- The store a call leaves behind; a failed transaction leaves the one it found. -/
def after (scanner : Json.Scanner) (store : ArtifactSetStore) (call : SetStoreCall) : ArtifactSetStore :=
  match store.transact scanner call with
  | .ok (_, committed) => committed
  | .error _ => store

/-- The store after a sequence of calls, each one transaction. -/
def run (scanner : Json.Scanner) (store : ArtifactSetStore) (calls : List SetStoreCall) : ArtifactSetStore := calls.foldl (after scanner) store

end ArtifactSetStore

end Retonr
