import Retonr.ModelStore.Record

/-! The state store's operations. Each is one transaction: it returns the store it commits,
and a failed one commits nothing. A foreign key that a statement would break is a database error. -/

namespace Retonr
open Text Retonr.Except

inductive WriteDisposition where
  | inserted
  | alreadyPresent
  deriving DecidableEq

structure InstallationWriteDisposition where
  (manifest installed : WriteDisposition)
  installation : StoredArtifactInstallation

inductive RemovalPreparationDisposition where
  | prepared
  | alreadyPrepared
  | alreadyCompleted
  deriving DecidableEq

inductive RemovalCompletionDisposition where
  | completed
  | alreadyCompleted

namespace ArtifactStateStore

/-- Inserts a record under a fresh key, or confirms that the key holds exactly this record. -/
def insertImmutable {κ ρ : Type} [DecidableEq κ] [DecidableEq ρ] (table : Table κ ρ) (key : κ) (record : ρ) :
    StoreResult (WriteDisposition × Table κ ρ) :=
  match table.find key with
  | none => .ok (.inserted, table.upsert key record)
  | some existing => if existing = record then .ok (.alreadyPresent, table) else .error .immutableConflict

def putManifest (store : ArtifactStateStore) (manifest : ArtifactManifest) :
    StoreResult (WriteDisposition × ArtifactStateStore) := do
  manifest.validate.mapError StoreError.invalidManifest
  let encoded ← encodeRecord ArtifactManifest.toJson manifest
  let (disposition, artifactManifests) ← insertImmutable store.artifactManifests manifest.artifactId.digest encoded
  .ok (disposition, { store with artifactManifests })

def manifest (store : ArtifactStateStore) (artifactId : ArtifactId) : StoreResult (Option ArtifactManifest) :=
  match store.loadManifest artifactId with
  | none => .ok none
  | some manifest => do
      manifest.validate.mapError StoreError.invalidManifest
      require (manifest.artifactId = artifactId) .corruptRecord
      .ok (some manifest)

def validateInstallationInput (manifest : ArtifactManifest) (installed : InstalledArtifact) : StoreResult Unit := do
  manifest.validate.mapError StoreError.invalidManifest
  installed.validate.mapError StoreError.invalidInstallation
  require (manifest.artifactId = installed.artifactId ∧ manifest.artifactDigest = installed.artifactDigest ∧
    manifest.byteSize = installed.byteSize) .immutableConflict

/-- A prepared removal blocks the installation until it is completed. -/
def requireNotPending (installation : Option StoredArtifactInstallation) (removal : Option StoredArtifactRemoval) :
    StoreResult Unit :=
  match removal with
  | none => .ok ()
  | some removal =>
      match removal.phase, installation with
      | .prepared, some _ => .error .corruptRecord
      | .prepared, none => .error .removalPending
      | .completed, some installation =>
          require (removal.selection.epoch.get < installation.epoch.get) .corruptRecord
      | .completed, none => .ok ()

/-- The generation a fresh installation receives. -/
def nextGeneration (removal : Option StoredArtifactRemoval) : StoreResult ArtifactInstallationEpoch :=
  match removal with
  | none => .ok .first
  | some removal => removal.selection.epoch.next

/-- Without an installation no binding may name the artifact. -/
def requireUnbound (store : ArtifactStateStore) (artifactId : ArtifactId) (installation : Option StoredArtifactInstallation) :
    StoreResult Unit :=
  match installation with
  | some _ => .ok ()
  | none => do
      let bindings ← store.loadActiveBindings
      require (∀ binding ∈ bindings, binding.artifactId ≠ artifactId) .corruptRecord

/-- The manifest of a table that holds this record already, or takes it. -/
def ensureManifest (store : ArtifactStateStore) (manifest : ArtifactManifest) :
    StoreResult (WriteDisposition × Table Digest ArtifactManifest) :=
  match store.loadManifest manifest.artifactId with
  | some _ => .ok (.alreadyPresent, store.artifactManifests)
  | none => insertImmutable store.artifactManifests manifest.artifactId.digest manifest

def putInstallation (store : ArtifactStateStore) (manifest : ArtifactManifest) (installed : InstalledArtifact) :
    StoreResult (InstallationWriteDisposition × ArtifactStateStore) := do
  validateInstallationInput manifest installed
  let _ ← encodeRecord ArtifactManifest.toJson manifest
  let installedRecord ← encodeRecord InstalledArtifact.toJson installed
  let existingManifest := store.loadManifest manifest.artifactId
  let existing ← store.loadInstallation manifest.artifactId
  let removal ← store.loadRemoval manifest.artifactId
  validateRemovalState manifest.artifactId.digest existingManifest existing removal
  requireNotPending existing removal
  validateExistingInstallation manifest.artifactId.digest existingManifest (existing.map StoredArtifactInstallation.installed)
  store.requireUnbound manifest.artifactId existing
  require ((∀ other ∈ existingManifest, other = manifest) ∧
    ∀ other ∈ existing.map StoredArtifactInstallation.installed, other = installed) .immutableConflict
  let (manifestDisposition, artifactManifests) ← store.ensureManifest manifest
  match existing with
  | some existing => .ok (⟨manifestDisposition, .alreadyPresent, ⟨installed, existing.epoch⟩⟩, { store with artifactManifests })
  | none => do
      let epoch ← nextGeneration removal
      let row : InstalledRow := ⟨epoch.databaseValue, installedRecord⟩
      let installedArtifacts := store.installedArtifacts.upsert manifest.artifactId.digest row
      .ok (⟨manifestDisposition, .inserted, ⟨installed, epoch⟩⟩, { store with artifactManifests, installedArtifacts })

def putQualification (store : ArtifactStateStore) (qualification : QualificationRecord) :
    StoreResult (WriteDisposition × ArtifactStateStore) := do
  qualification.validate.mapError StoreError.invalidQualification
  let found ← store.manifest qualification.artifactId
  match found with
  | none => .error .missingRecord
  | some manifest => do
      require (manifest.artifactDigest = qualification.artifactDigest) .immutableConflict
      let qualificationId ← qualification.qualificationId.mapError StoreError.invalidQualification
      let encoded ← encodeRecord QualificationRecord.toJson qualification
      -- On a conflict only the record text is compared, not the artifact column.
      match store.qualificationRecords.find qualificationId.digest with
      | some existing => if existing.recordJson = encoded then .ok (.alreadyPresent, store) else .error .immutableConflict
      | none =>
          let row : QualificationRow := ⟨qualification.artifactId.digest, encoded⟩
          let qualificationRecords := store.qualificationRecords.upsert qualificationId.digest row
          .ok (.inserted, { store with qualificationRecords })

/-- Appends the invalidation and drops every binding that rests on the qualification. -/
def invalidate (store : ArtifactStateStore) (invalidation : QualificationInvalidation) : StoreResult ArtifactStateStore := do
  require (QualificationInvalidation.validReason invalidation.reasonCode = true) .invalidInvalidation
  let encoded ← encodeRecord QualificationInvalidation.toJson invalidation
  let found ← store.loadQualification invalidation.qualificationId
  require (found.isSome = true) .missingRecord
  let row : InvalidationRow := ⟨invalidation.qualificationId.digest, invalidation.reasonCode, encoded⟩
  let activeBindings := store.activeBindings.deleteWhere fun _ binding =>
    binding.qualificationId == invalidation.qualificationId.digest
  .ok { store with qualificationInvalidations := store.qualificationInvalidations ++ [row], activeBindings }

def requireAbsentActivation (store : ArtifactStateStore) (activationId : ActivationId) : StoreResult Unit :=
  require ((store.activationDecisions.find activationId.digest).isNone = true) .immutableConflict

def insertDecision (store : ArtifactStateStore) (decision : ActivationDecision) : StoreResult (Table Digest DecisionRow) := do
  let encoded ← encodeRecord ActivationDecision.toJson decision
  match store.activationDecisions.insert decision.activationId.digest ⟨decision.role.machineName, encoded⟩ with
  | none => .error .database
  | some activationDecisions => .ok activationDecisions

def requireNoPreparedRemoval (removal : Option StoredArtifactRemoval) : StoreResult Unit :=
  require (∀ record ∈ removal, record.phase ≠ .prepared) .removalPending

def activate (store : ArtifactStateStore) (activationId : ActivationId) (role : ArtifactRole)
    (verifiedInstalled : InstalledArtifact) (qualificationId : QualificationId) :
    StoreResult (ActiveArtifactBinding × ArtifactStateStore) := do
  verifiedInstalled.validate.mapError StoreError.invalidInstallation
  store.requireAbsentActivation activationId
  let indexedId := verifiedInstalled.artifactId.digest
  let installation ← store.loadInstallation verifiedInstalled.artifactId
  let removal ← store.loadRemoval verifiedInstalled.artifactId
  validateRemovalState indexedId (store.loadManifest verifiedInstalled.artifactId) installation removal
  requireNoPreparedRemoval removal
  match installation with
  | none => .error .missingRecord
  | some installation => do
      require (installation.installed = verifiedInstalled) .verificationFailed
      let found ← store.loadQualification qualificationId
      match found with
      | none => .error .missingRecord
      | some qualification => do
          let invalidations ← store.loadInvalidations qualificationId
          let binding ← (Retonr.activate installation.installed qualification invalidations role).mapError
            fun _ => StoreError.invalidActiveBinding
          let decision : ActivationDecision :=
            { activationId, action := .activate, role, artifactId := some binding.artifactId
              qualificationId := some binding.qualificationId }
          require (decision.valid = true) .invalidDecision
          let activationDecisions ← store.insertDecision decision
          let bindingJson ← encodeRecord ActiveArtifactBinding.toJson binding
          require ((store.installedArtifacts.find binding.artifactId.digest).isSome = true ∧
            (store.qualificationRecords.find binding.qualificationId.digest).isSome = true) .database
          let row : StoredBindingRow := ⟨binding.artifactId.digest, binding.qualificationId.digest, bindingJson⟩
          let activeBindings := store.activeBindings.upsert role.machineName row
          .ok (binding, { store with activationDecisions, activeBindings })

def deactivate (store : ArtifactStateStore) (activationId : ActivationId) (role : ArtifactRole) :
    StoreResult ArtifactStateStore := do
  store.requireAbsentActivation activationId
  require ((store.activeBindings.find role.machineName).isSome = true) .missingRecord
  let decision : ActivationDecision :=
    { activationId, action := .deactivate, role, artifactId := none, qualificationId := none }
  require (decision.valid = true) .invalidDecision
  let activationDecisions ← store.insertDecision decision
  let activeBindings := store.activeBindings.deleteWhere fun key _ => key == role.machineName
  .ok { store with activationDecisions, activeBindings }

/-- Revalidates one binding against the durable evidence it rests on. -/
def validateBinding (store : ArtifactStateStore) (binding : ActiveArtifactBinding) (verifyInstalled : InstalledArtifact → Bool) :
    StoreResult ActiveArtifactBinding := do
  let indexedId := binding.artifactId.digest
  let installation ← store.loadInstallation binding.artifactId
  let removal ← store.loadRemoval binding.artifactId
  validateRemovalState indexedId (store.loadManifest binding.artifactId) installation removal
  match installation with
  | none => .error .invalidActiveBinding
  | some installation => do
      require (verifyInstalled installation.installed = true) .verificationFailed
      let found ← store.loadQualification binding.qualificationId
      match found with
      | none => .error .invalidActiveBinding
      | some qualification => do
          let invalidations ← store.loadInvalidations binding.qualificationId
          let recovered ← (Retonr.activate installation.installed qualification invalidations binding.role).mapError
            fun _ => StoreError.invalidActiveBinding
          require (recovered = binding) .invalidActiveBinding
          .ok recovered

def recoverActiveBindings (store : ArtifactStateStore) (verifyInstalled : InstalledArtifact → Bool) :
    StoreResult (List ActiveArtifactBinding) := do
  let bindings ← store.loadActiveBindings
  bindings.mapM fun binding => store.validateBinding binding verifyInstalled

def artifactRemovalState (store : ArtifactStateStore) (artifactId : ArtifactId) :
    StoreResult (Option StoredArtifactInstallation × Option StoredArtifactRemoval) := do
  let installation ← store.loadInstallation artifactId
  let removal ← store.loadRemoval artifactId
  validateRemovalState artifactId.digest (store.loadManifest artifactId) installation removal
  .ok (installation, removal)

def validateNoActiveBinding (store : ArtifactStateStore) (selection : StoredArtifactInstallation) : StoreResult Unit := do
  let bindings ← store.loadActiveBindings
  bindings.forM fun binding => do
    let _ ← store.validateBinding binding fun _ => true
    require (binding.artifactId ≠ selection.installed.artifactId) .activeArtifact

/-- Drops the exact installed generation; a binding that still refers to it forbids that. -/
def deleteInstalled (store : ArtifactStateStore) (selection : StoredArtifactInstallation) : StoreResult ArtifactStateStore := do
  let artifactId := selection.installed.artifactId.digest
  let selected (key : Digest) (row : InstalledRow) : Bool :=
    key == artifactId && row.installationEpoch == selection.epoch.databaseValue
  require ((store.installedArtifacts.find artifactId).any (selected artifactId) = true) .staleInstallation
  require (∀ entry ∈ store.activeBindings.rows, entry.2.artifactId ≠ artifactId) .database
  .ok { store with installedArtifacts := store.installedArtifacts.deleteWhere selected }

def prepareArtifactRemoval (store : ArtifactStateStore) (selection : StoredArtifactInstallation) :
    StoreResult (RemovalPreparationDisposition × ArtifactStateStore) := do
  selection.installed.validate.mapError StoreError.invalidInstallation
  let artifactId := selection.installed.artifactId
  let current ← store.loadInstallation artifactId
  let removal ← store.loadRemoval artifactId
  validateRemovalState artifactId.digest (store.loadManifest artifactId) current removal
  match removal.filter fun removal => removal.selection = selection with
  | some removal =>
      match removal.phase with
      | .completed => .ok (.alreadyCompleted, store)
      | .prepared => do
          store.validateNoActiveBinding selection
          .ok (.alreadyPrepared, store)
  | none => do
      require (current = some selection) .staleInstallation
      store.validateNoActiveBinding selection
      let journaled ← store.writeRemoval ⟨selection, .prepared⟩
      let removed ← journaled.deleteInstalled selection
      .ok (.prepared, removed)

def completeArtifactRemoval (store : ArtifactStateStore) (selection : StoredArtifactInstallation) :
    StoreResult (RemovalCompletionDisposition × ArtifactStateStore) := do
  let artifactId := selection.installed.artifactId
  let current ← store.loadInstallation artifactId
  let found ← store.loadRemoval artifactId
  match found with
  | none => .error .missingRecord
  | some removal => do
      validateRemovalState artifactId.digest (store.loadManifest artifactId) current (some removal)
      require (removal.selection = selection) .staleInstallation
      match removal.phase with
      | .completed => .ok (.alreadyCompleted, store)
      | .prepared => do
          require (current.isNone = true) .corruptRecord
          store.validateNoActiveBinding selection
          let completed ← store.writeRemoval ⟨selection, .completed⟩
          .ok (.completed, completed)

end ArtifactStateStore

/-- One mutating call on the store. -/
inductive StoreCall where
  | putManifest (manifest : ArtifactManifest)
  | putInstallation (manifest : ArtifactManifest) (installed : InstalledArtifact)
  | putQualification (qualification : QualificationRecord)
  | invalidate (invalidation : QualificationInvalidation)
  | activate (activationId : ActivationId) (role : ArtifactRole) (verifiedInstalled : InstalledArtifact)
      (qualificationId : QualificationId)
  | deactivate (activationId : ActivationId) (role : ArtifactRole)
  | prepareArtifactRemoval (selection : StoredArtifactInstallation)
  | completeArtifactRemoval (selection : StoredArtifactInstallation)

inductive StoreReply where
  | written (disposition : WriteDisposition)
  | installed (disposition : InstallationWriteDisposition)
  | activated (binding : ActiveArtifactBinding)
  | removalPrepared (disposition : RemovalPreparationDisposition)
  | removalCompleted (disposition : RemovalCompletionDisposition)
  | done

namespace ArtifactStateStore

def transact (store : ArtifactStateStore) : StoreCall → StoreResult (StoreReply × ArtifactStateStore)
  | .putManifest manifest => (store.putManifest manifest).map fun (disposition, store) => (.written disposition, store)
  | .putInstallation manifest installed =>
      (store.putInstallation manifest installed).map fun (disposition, store) => (.installed disposition, store)
  | .putQualification qualification =>
      (store.putQualification qualification).map fun (disposition, store) => (.written disposition, store)
  | .invalidate invalidation => (store.invalidate invalidation).map fun store => (.done, store)
  | .activate activationId role verifiedInstalled qualificationId =>
      (store.activate activationId role verifiedInstalled qualificationId).map fun (binding, store) => (.activated binding, store)
  | .deactivate activationId role => (store.deactivate activationId role).map fun store => (.done, store)
  | .prepareArtifactRemoval selection =>
      (store.prepareArtifactRemoval selection).map fun (disposition, store) => (.removalPrepared disposition, store)
  | .completeArtifactRemoval selection =>
      (store.completeArtifactRemoval selection).map fun (disposition, store) => (.removalCompleted disposition, store)

/-- The store a call leaves behind; a failed transaction leaves the one it found. -/
def after (store : ArtifactStateStore) (call : StoreCall) : ArtifactStateStore :=
  match store.transact call with
  | .ok (_, committed) => committed
  | .error _ => store

/-- The store after a sequence of calls, each one transaction. -/
def run (store : ArtifactStateStore) (calls : List StoreCall) : ArtifactStateStore := calls.foldl after store

end ArtifactStateStore

end Retonr
