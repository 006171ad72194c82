import Retonr.Proofs.ManagedBytes

/-! Every service call keeps the managed state consistent at every point where it can fail or stop. -/

namespace Retonr
open Text Crash ManagedState ArtifactStorage Program PinnedDirectory

/-- Anything may fail or stop the call, and each of its steps must be permitted. -/
def serviceContract (excused : StoredArtifactInstallation → Prop) (call : ServiceCall) : Contract ManagedState :=
  .hostile (Consistent excused) (Permitted call)

variable {excused : StoredArtifactInstallation → Prop} {call : ServiceCall} {contract : Contract ManagedState} {state : ManagedState}
  {name : Text} {inode : Nat}

section Transactions

variable {ε α : Type} {convert : StoreError → ε}

theorem readStore_observes {operation : ArtifactStateStore → StoreResult α}
    {facts : Except ε α → Prop} (fails : contract.Faulty → facts (.error (convert .database)))
    (holds : facts ((operation state.store).mapError convert)) : (readStore convert operation).Observes contract state facts :=
  observes_query fails holds

theorem transactStore_meets
    {operation : ArtifactStateStore → StoreResult (α × ArtifactStateStore)} {post : Except ε α → ManagedState → Prop}
    (invariant : contract.invariant state) (stays : contract.guarantee state state)
    (fails : contract.Faulty → post (.error (convert .database)) state)
    (commits : ∀ value store, operation state.store = .ok (value, store) →
      contract.invariant { state with store } ∧ contract.guarantee state { state with store } ∧ post (.ok value) { state with store })
    (refuses : ∀ fault, operation state.store = .error fault → post (.error (convert fault)) state) :
    (transactStore convert operation).Meets contract state post := by
  refine meets_atomic invariant stays fails ?_ ?_
  · intro value next done
    cases answer : operation state.store with
    | error fault =>
      rw [answer] at done
      cases done
    | ok committed =>
      obtain ⟨_, store⟩ := committed
      rw [answer] at done
      cases done
      exact commits _ store answer
  · intro other refused
    cases answer : operation state.store with
    | error fault =>
      rw [answer] at refused
      cases refused
      exact refuses fault answer
    | ok committed =>
      rw [answer] at refused
      cases refused

theorem transactStore_upholds {operation : ArtifactStateStore → StoreResult (α × ArtifactStateStore)} {post : α → ManagedState → Prop}
    (consistent : Consistent excused state) (commits : ∀ value store, operation state.store = .ok (value, store) →
      Consistent excused { state with store } ∧ Permitted call state { state with store } ∧ post value { state with store }) :
    (transactStore convert operation).Upholds (serviceContract excused call) state post := by
  refine transactStore_meets consistent (.refl call state) (fun _ _ failed => nomatch failed) ?_ (fun _ _ _ failed => nomatch failed)
  intro value store done
  obtain ⟨kept, permitted, holds⟩ := commits value store done
  refine ⟨kept, permitted, ?_⟩
  intro other same
  cases same
  exact holds

end Transactions

section Import
open OfflineArtifactImport

/-- Neither the store nor a final name changed. -/
structure Aside (before after : ManagedState) : Prop where
  store : after.store = before.store
  artifacts : after.storage.artifacts = before.storage.artifacts

theorem Aside.refl (state : ManagedState) : Aside state state := ⟨rfl, rfl⟩

variable {after : ManagedState}

theorem Aside.trans {before middle : ManagedState} (first : Aside before middle) (second : Aside middle after) : Aside before after :=
  ⟨second.store.trans first.store, second.artifacts.trans first.artifacts⟩

theorem Aside.apart {before : ManagedState} (aside : Aside before after) (apart : before.storage.Apart inode) : after.storage.Apart inode := by
  intro name
  rw [aside.artifacts]
  exact apart name

theorem unstageFile_upholds (consistent : Consistent excused state) :
    (staging.removeFile name).Upholds (serviceContract excused call) state fun _ after => Aside state after := by
  refine upholds_atomic consistent (.refl call state) ?_
  intro _ next done
  split at done
  · cases done
  · cases done
    obtain ⟨kept, permitted⟩ := consistent.untouched call Spares.unstage
    exact ⟨kept, permitted, rfl, rfl⟩

theorem removeStagedFile_upholds (consistent : Consistent excused state) :
    (staging.removeFileIfSameIdentity name inode).Upholds (serviceContract excused call) state
      fun _ after => Aside state after := by
  refine readOnly_query.upholds_bind consistent fun _ => ?_
  refine openManagedFileByName_observes.upholds_bind consistent ?_
  intro current _
  cases current with
  | none => exact upholds_raise consistent
  | some current =>
    refine readOnly_require.upholds_bind consistent fun _ => ?_
    exact unstageFile_upholds consistent

theorem removeStaging_upholds {entries : List (Text × DirectoryEntry)} (consistent : Consistent excused state) :
    (removeStaging entries).Upholds (serviceContract excused call) state fun _ _ => True := by
  induction entries generalizing state with
  | nil => exact upholds_pure consistent trivial
  | cons entry entries ih =>
    refine (unstageFile_upholds consistent).bind ?_
    intro _ after kept _
    exact ih kept

theorem recoverOwnedStaging_upholds (consistent : Consistent excused state) :
    recoverOwnedStaging.Upholds (serviceContract excused call) state fun _ _ => True := by
  refine rawEntries_observes.upholds_bind consistent ?_
  intro entries _
  refine readOnly_require.upholds_bind consistent fun _ => ?_
  refine readOnly_require.upholds_bind consistent fun _ => ?_
  refine (removeStaging_upholds consistent).bind ?_
  intro _ after kept _
  split
  · exact upholds_pure kept trivial
  · exact readOnly_query.upholds kept trivial

variable {limits : ArtifactImportLimits}

theorem openService_upholds (consistent : Consistent excused state) :
    (openService limits).Upholds (serviceContract excused call) state fun _ _ => True := by
  refine readOnly_require.upholds_bind consistent fun _ => ?_
  refine (recoverOwnedStaging_upholds consistent).mapError.bind ?_
  intro _ after kept _
  exact validateLayout_readOnly.mapError.upholds kept trivial

/-- The name and the file of a fresh staging entry. -/
def Staged (before : ManagedState) (created : Text × Nat) (after : ManagedState) : Prop :=
  Aside before after ∧ after.storage.Apart created.2

variable {names : List Text}

theorem claimStagingName_upholds {name : Text} (consistent : Consistent excused state) :
    (Program.atomic io fun state : ManagedState =>
        match state.storage.staging.find name with
        | some _ => .ok (none, state)
        | none =>
            let inode := state.storage.freshInode
            let storage : ArtifactStorage :=
              { state.storage with
                staging := state.storage.staging.upsert name (.regular inode)
                contents := Function.update state.storage.contents inode [] }
            .ok (some inode, { state with storage })).Upholds (serviceContract excused call) state fun result after =>
          match result with
          | some inode => Aside state after ∧ after.storage.Apart inode
          | none => after = state := by
  refine upholds_atomic consistent (.refl call state) ?_
  intro value next done
  split at done
  · cases done
    exact ⟨consistent, .refl call state, rfl⟩
  · cases done
    obtain ⟨kept, permitted⟩ := consistent.untouched call Spares.stage
    exact ⟨kept, permitted, ⟨rfl, rfl⟩, state.storage.apart_freshInode⟩

theorem createStagingFileWith_upholds (consistent : Consistent excused state) :
    (createStagingFileWith names).Upholds (serviceContract excused call) state (Staged state) := by
  induction names with
  | nil => exact upholds_raise consistent
  | cons name names ih =>
    refine (claimStagingName_upholds consistent).bind ?_
    intro result after kept holds
    cases result with
    | none =>
      subst holds
      exact ih
    | some inode => exact upholds_pure kept holds

theorem createStagingFile_upholds {cancellation : CancellationSource} (consistent : Consistent excused state) :
    (createStagingFile names cancellation).Upholds (serviceContract excused call) state (Staged state) := by
  refine rawEntries_observes.upholds_bind consistent ?_
  intro entries _
  refine readOnly_require.upholds_bind consistent fun _ => ?_
  exact createStagingFileWith_upholds consistent

variable {staged : Option Nat}

theorem writeChunk_upholds {chunk : Bytes} (consistent : Consistent excused state) (apart : ∀ inode ∈ staged, state.storage.Apart inode) :
    (writeChunk staged chunk).Upholds (serviceContract excused call) state fun _ after => Aside state after := by
  cases staged with
  | none => exact upholds_pure consistent (.refl state)
  | some inode =>
    have writes : ∀ bytes, Consistent excused { state with storage := state.storage.write inode bytes } ∧
        Permitted call state { state with storage := state.storage.write inode bytes } :=
      fun bytes => consistent.untouched call (Spares.write (apart inode rfl))
    unfold writeChunk
    refine upholds_call consistent ?_ ?_
    · intro reach
      exact writes (chunk.take reach)
    · intro _ next done
      cases done
      exact ⟨(writes chunk).1, (writes chunk).2, rfl, rfl⟩

theorem copyReads_upholds {expectedSize : Nat} {chunks : List Bytes} {copied : Bytes}
    (consistent : Consistent excused state) (apart : ∀ inode ∈ staged, state.storage.Apart inode) :
    (copyReads staged expectedSize chunks copied).Upholds (serviceContract excused call) state fun _ after => Aside state after := by
  induction chunks generalizing state copied with
  | nil =>
    refine ensureNotCancelled_readOnly.upholds_bind consistent fun _ => ?_
    refine readOnly_query.upholds_bind consistent fun _ => ?_
    exact upholds_pure consistent (.refl state)
  | cons chunk chunks ih =>
    refine ensureNotCancelled_readOnly.upholds_bind consistent fun _ => ?_
    refine readOnly_query.upholds_bind consistent fun _ => ?_
    split
    · exact upholds_pure consistent (.refl state)
    · refine readOnly_require.upholds_bind consistent fun _ => ?_
      refine (writeChunk_upholds consistent apart).bind ?_
      intro _ after kept aside
      refine (ih kept fun inode member => aside.apart (apart inode member)).mono ?_
      intro _ final _ later
      exact aside.trans later

variable {request : OfflineArtifactImportRequest}

theorem receiveSource_upholds {source : SourceFile}
    (consistent : Consistent excused state) (apart : ∀ inode ∈ staged, state.storage.Apart inode) :
    (receiveSource request source staged).Upholds (serviceContract excused call) state fun _ after => Aside state after := by
  have copied : (copyAndHash source staged request.manifest.byteSize).Upholds (serviceContract excused call) state
      fun _ after => Aside state after := by
    refine (copyReads_upholds consistent apart).bind ?_
    intro _ after kept aside
    refine readOnly_require.upholds_bind kept fun _ => ?_
    exact upholds_pure kept aside
  refine copied.bind ?_
  intro _ after kept aside
  refine readOnly_query.upholds_bind kept fun _ => ?_
  refine readOnly_require.upholds_bind kept fun _ => ?_
  exact ensureNotCancelled_readOnly.upholds kept aside

theorem dropStaged_upholds (consistent : Consistent excused state) :
    (dropStaged name inode).Upholds (serviceContract excused call) state fun _ _ => True := by
  refine (removeStagedFile_upholds consistent).attempt.bind ?_
  intro result after kept _
  cases result with
  | error fault => exact upholds_pure kept trivial
  | ok done =>
    refine (readOnly_query.upholds kept (Aside.refl after)).attempt.bind ?_
    intro _ final last _
    exact upholds_pure last trivial

theorem owningStaged_upholds {α : Type} {step : ImportCall α} {post : α → ManagedState → Prop}
    (upholds : step.Upholds (serviceContract excused call) state post) :
    (owningStaged name inode step).Upholds (serviceContract excused call) state post := by
  refine upholds.attempt.bind ?_
  intro result after kept holds
  cases result with
  | ok value => exact upholds_pure kept (holds value rfl)
  | error fault =>
    refine (dropStaged_upholds kept).bind ?_
    intro _ final last _
    exact upholds_raise last

theorem cleanup_upholds (consistent : Consistent excused state) :
    (cleanup name inode).Upholds (serviceContract excused call) state fun _ after => Aside state after := by
  refine (owningStaged_upholds (removeStagedFile_upholds consistent).mapError).bind ?_
  intro _ after kept aside
  exact readOnly_query.mapError.upholds kept aside

/-- The final name that is free for a link belongs to no prepared removal. -/
def Unclaimed (state : ManagedState) (name : Text) : Prop :=
  ∀ selection, state.RemovalPrepared selection → selection.installed.artifactDigest.asStr ≠ name

theorem Unclaimed.frame (unclaimed : Unclaimed state name) (same : after.store = state.store) : Unclaimed after name := by
  intro selection prepared
  rw [RemovalPrepared, same] at prepared
  exact unclaimed selection prepared

variable {destination : Text}

theorem hardLinkTo_upholds (consistent : Consistent excused state) (apart : state.storage.Apart inode)
    (staged : state.storage.staging.find name = some (.regular inode)) (unclaimed : Unclaimed state destination) :
    (hardLinkTo name destination).Upholds (serviceContract excused call) state fun _ after => after.store = state.store := by
  refine upholds_atomic consistent (.refl call state) ?_
  intro _ next done
  rw [staged] at done
  cases absent : state.storage.artifacts.find destination with
  | some entry =>
    rw [absent] at done
    cases done
  | none =>
    rw [absent] at done
    cases done
    have unmanaged : ∀ bytes, state.storage.managedBytes destination ≠ some bytes := by
      intro bytes found
      obtain ⟨_, present, _⟩ := managedBytes_eq_some.mp found
      cases absent.symm.trans present
    refine ⟨consistent.spares (.link apart) ?_ ?_, .spares (.link apart) ?_, rfl⟩
    · intro artifactId current removal read same
      obtain ⟨bytes, found, _⟩ := consistent.exact artifactId current removal read
      exact unmanaged bytes (same ▸ found)
    · intro selection prepared same
      exact absurd same (unclaimed selection prepared)
    · intro name bytes same found
      exact absurd (same ▸ found) (unmanaged bytes)

theorem linkStaged_upholds {frozen : MetadataFingerprint}
    (consistent : Consistent excused state) (apart : state.storage.Apart frozen.inode) (unclaimed : Unclaimed state destination) :
    (linkStaged limits name frozen destination).Upholds (serviceContract excused call) state fun _ after => after.store = state.store := by
  refine ensureNotCancelled_readOnly.upholds_bind consistent fun _ => ?_
  have rechecked : (recheckFrozenSingleLink name frozen).Observes (serviceContract excused call) state fun answer =>
      answer = .ok () → state.storage.Opens .staging name (some frozen) := by
    refine recheckManagedFile_observes.mapError.bind ?_ (fun _ _ failed => nomatch failed)
    intro _ opens
    exact observes_require (fun _ _ => opens _ rfl) fun _ failed => nomatch failed
  refine rechecked.upholds_bind consistent ?_
  intro _ opens
  have capacity : ((artifacts.exactEntryCapacity destination limits.maximumStorageEntries.toNat .caller).mapError
      mapStorageError).ReadOnly := by
    apply Program.ReadOnly.mapError
    refine Program.ReadOnly.bind ?_ fun _ => readOnly_done
    intro contract state
    exact hasExactEntryName_observes.mono fun _ _ => trivial
  refine capacity.upholds_bind consistent fun capacity => ?_
  cases capacity with
  | present => exact upholds_raise consistent
  | full => exact upholds_raise consistent
  | available =>
    refine readOnly_query.mapError.upholds_bind consistent fun _ => ?_
    refine (hardLinkTo_upholds consistent apart (opens rfl).1 unclaimed).bind ?_
    intro _ after kept same
    exact readOnly_query.mapError.upholds kept same

theorem commitStaged_upholds {frozen : MetadataFingerprint}
    (consistent : Consistent excused state) (apart : state.storage.Apart frozen.inode) (unclaimed : Unclaimed state destination) :
    (commitStaged limits name inode frozen destination).Upholds (serviceContract excused call) state
      fun _ after => after.store = state.store := by
  refine (linkStaged_upholds consistent apart unclaimed).attempt.bind ?_
  intro commit linked kept committed
  refine (cleanup_upholds kept).attempt.bind ?_
  intro cleaned after last removed
  have succeeded : ∀ {ε : Type} {outcome : Except ε Unit} {facts : Prop}, (∀ value, outcome = .ok value → facts) →
      (Program.done outcome).Observes (serviceContract excused call) after fun answer => ∀ value, answer = .ok value → facts :=
    fun holds => observes_done holds
  refine (succeeded committed).upholds_bind last ?_
  intro _ same
  refine (succeeded removed).upholds last |>.mono ?_
  intro _ final _ answer
  obtain ⟨rfl, aside⟩ := answer
  exact (aside _ rfl).store.trans (same _ rfl)

theorem freezeSingleLink_observes : (freezeSingleLink inode).Observes contract state fun answer =>
    ∀ frozen, answer = .ok frozen → frozen.inode = inode := by
  apply observes_bind
  apply observes_mapError
  refine fingerprintOf_observes (fun _ _ failed => nomatch failed) ?_
  apply observes_bind
  refine observes_require ?_ (fun _ _ failed => nomatch failed)
  intro _
  refine observes_pure ?_
  intro frozen same
  cases same
  rfl

theorem stageAndCommit_upholds {source : SourceFile}
    (consistent : Consistent excused state) (unclaimed : Unclaimed state request.manifest.artifactDigest.asStr) :
    (stageAndCommit limits request source names).Upholds (serviceContract excused call) state fun _ after => after.store = state.store := by
  refine (createStagingFile_upholds consistent).mapError.bind ?_
  intro (name, inode) created kept staged
  obtain ⟨aside, apart⟩ := staged
  have received : (do
      receiveSource request source (some inode)
      freezeSingleLink inode : ImportCall MetadataFingerprint).Upholds (serviceContract excused call) created fun frozen after =>
        Aside created after ∧ frozen.inode = inode := by
    refine (receiveSource_upholds kept fun other member => by cases member; exact apart).bind ?_
    intro _ after last later
    refine freezeSingleLink_observes.upholds last |>.mono ?_
    intro frozen final _ answer
    exact ⟨answer.1 ▸ later, answer.2 frozen rfl⟩
  refine (owningStaged_upholds received).bind ?_
  intro frozen after last holds
  obtain ⟨later, rfl⟩ := holds
  have same := later.store.trans aside.store
  refine (commitStaged_upholds last (later.apart apart) ?_).mono ?_
  · exact unclaimed.frame same
  · intro _ final _ committed
    exact committed.trans same

/-- What a request that passed its checks may rely on: its final name is claimed by no prepared removal. -/
theorem unclaimed_of_pendingRemoval {manifest : ArtifactManifest} (valid : manifest.validate = .ok ())
    {current : Option StoredArtifactInstallation × Option StoredArtifactRemoval}
    (read : state.store.artifactRemovalState manifest.artifactId = .ok current) (idle : pendingRemoval current = none) :
    Unclaimed state manifest.artifactDigest.asStr := by
  intro selection prepared same
  have named := (ArtifactStateStore.artifactRemovalState_eq_ok.mp prepared).journaled_digest rfl
  have equal : selection.installed.artifactId = manifest.artifactId :=
    ArtifactId.eq_of_digest ((named.symm.trans (Digest.ext same)).trans (ArtifactManifest.identity_of_validate valid).symm)
  rw [RemovalPrepared, equal, read] at prepared
  cases prepared
  cases idle

/-- Import and reconciliation end alike: the file is verified and then registered. -/
theorem verifyAndRegister_upholds {ε α : Type} {cancelled : ε} {fromVerification : ExactArtifactVerificationError → ε}
    {fromStorage : ArtifactInventoryError → ε} {fromStore : StoreError → ε} {manifest : ArtifactManifest} {maximumEntries : Nat}
    {finish : InstallationWriteDisposition → α} (consistent : Consistent excused state) :
    (do ensureNotCancelled .caller cancelled
        let _ ← (verifyExactArtifact manifest.artifactDigest.asStr ⟨manifest.byteSize, manifest.artifactDigest, maximumEntries⟩
          .caller).mapError fromVerification
        validateLayout.mapError fromStorage
        ensureNotCancelled .caller cancelled
        let written ← transactStore fromStore fun store => store.putInstallation manifest (installedFrom manifest)
        pure (finish written) : Program ManagedState ε α).Upholds (serviceContract excused call) state fun _ _ => True := by
  refine ensureNotCancelled_readOnly.upholds_bind consistent fun _ => ?_
  refine verifyExactArtifactWith_observes.mapError.upholds_bind consistent ?_
  intro file verified
  refine validateLayout_readOnly.mapError.upholds_bind consistent fun _ => ?_
  refine ensureNotCancelled_readOnly.upholds_bind consistent fun _ => ?_
  have registered : (transactStore fromStore fun store => store.putInstallation manifest (installedFrom manifest)).Upholds
      (serviceContract excused call) state fun _ _ => True := by
    refine transactStore_upholds consistent ?_
    intro disposition store done
    obtain ⟨kept, permitted⟩ := consistent.register call (verified file rfl) done
    exact ⟨kept, permitted, trivial⟩
  refine registered.bind ?_
  intro written after kept _
  exact upholds_pure kept trivial

theorem readArtifact_observes {ε : Type} {convert : StoreError → ε} {artifactId : ArtifactId} :
    (readStore convert fun store => store.artifactRemovalState artifactId).Observes contract state fun answer =>
      ∀ current, answer = .ok current → state.store.artifactRemovalState artifactId = .ok current :=
  readStore_observes (fun _ _ failed => nomatch failed) fun _ same => Except.mapError_eq_ok.mp same

theorem importArtifact_upholds (consistent : Consistent excused state) :
    (importArtifact limits names request).Upholds (serviceContract excused call) state fun _ _ => True := by
  refine ensureNotCancelled_readOnly.upholds_bind consistent fun _ => ?_
  refine validateLayout_readOnly.mapError.upholds_bind consistent fun _ => ?_
  have checked : (Program.done (validateRequest limits request)).Observes (serviceContract excused call) state fun answer =>
      answer = .ok () → request.manifest.validate = .ok () := by
    apply observes_done
    intro accepted
    simp only [validateRequest, Except.bind_eq_ok, exists_unit, Except.mapError_eq_ok] at accepted
    exact accepted.1
  refine checked.upholds_bind consistent ?_
  intro _ valid
  refine readArtifact_observes.upholds_bind consistent ?_
  intro current loaded
  cases pending : pendingRemoval current with
  | some selection =>
    dsimp only
    exact upholds_raise consistent
  | none =>
    have unclaimed := unclaimed_of_pendingRemoval (valid rfl) (loaded current rfl) pending
    dsimp only
    refine readOnly_query.upholds_bind consistent fun source => ?_
    refine readOnly_require.upholds_bind consistent fun _ => ?_
    refine openManagedFile_observes.mapError.upholds_bind consistent ?_
    intro destination _
    cases destination with
    | some file =>
      refine (receiveSource_upholds consistent fun _ absent => absurd absent (Option.not_mem_none _)).bind ?_
      intro _ after kept _
      exact verifyAndRegister_upholds kept
    | none =>
      refine (stageAndCommit_upholds consistent unclaimed).bind ?_
      intro _ after kept _
      exact verifyAndRegister_upholds kept

end Import

section Reconciliation
open ArtifactReconciliation

theorem reconcile_upholds {limits : ArtifactReconciliationLimits} {request : ArtifactOrphanReconciliationRequest}
    (consistent : Consistent excused state) : (reconcile limits request).Upholds (serviceContract excused call) state fun _ _ => True := by
  refine ensureNotCancelled_readOnly.upholds_bind consistent fun _ => ?_
  refine readOnly_done.upholds_bind consistent fun _ => ?_
  refine validateLayout_readOnly.mapError.upholds_bind consistent fun _ => ?_
  refine readArtifact_observes.upholds_bind consistent ?_
  intro current _
  split
  · exact upholds_raise consistent
  · refine ensureNotCancelled_readOnly.upholds_bind consistent fun _ => ?_
    exact verifyAndRegister_upholds consistent

end Reconciliation

section Removal
open ArtifactRemoval

variable {limits : ArtifactRemovalLimits} {request : ArtifactRemovalRequest} {verified : Option MetadataFingerprint}

/-- What the verification found under the name of the requested artifact. -/
def Finds (storage : ArtifactStorage) (request : ArtifactRemovalRequest) : Option MetadataFingerprint → Prop
  | some file => storage.Verified request.selection.installed.artifactDigest.asStr request.selection.installed.byteSize
      request.selection.installed.artifactDigest file
  | none => storage.artifacts.find request.selection.installed.artifactDigest.asStr = none

theorem Finds.resumable (finds : Finds state.storage request verified) (accepted : validateRequest request = .ok ()) :
    state.storage.Resumable request.selection := by
  refine ⟨accepted, ?_⟩
  cases verified with
  | none => exact .inl finds
  | some file => exact .inr ⟨file, finds⟩

theorem verify_observes {recovering : Bool} : (verify limits request recovering).Observes contract state fun answer =>
    match answer with
    | .ok verified => Finds state.storage request verified
    | .error _ => recovering = true → Unverified contract state request.selection.installed.artifactDigest.asStr
        ⟨request.selection.installed.byteSize, request.selection.installed.artifactDigest, limits.maximumStorageEntries.toNat⟩ .never := by
  apply observes_bind
  apply observes_attempt
  refine verifyExactArtifactWith_observes.mono ?_
  intro answer found
  cases answer with
  | ok file => exact observes_pure found
  | error fault =>
    cases recovering with
    | false => cases fault <;> exact observes_raise (fun impossible => nomatch impossible)
    | true =>
      cases fault with
      | missing => exact observes_pure found
      | _ => exact observes_raise fun _ => found

/-- The state without the final file of this name. -/
def unlinked (state : ManagedState) (name : Text) : ManagedState := { state with storage := state.storage.remove .artifacts name }

theorem opens_unlinked {found : Option MetadataFingerprint} (opens : (unlinked state name).storage.Opens .artifacts name found) :
    found = none := by
  have absent : (unlinked state name).storage.Opens .artifacts name none := (find_remove name).trans (if_pos rfl)
  exact opens.unique absent

theorem removeVerifiedFile_meets {file : MetadataFingerprint} (invariant : contract.invariant state)
    (stays : contract.guarantee state state) (opens : state.storage.Opens .artifacts name (some file))
    (unlinks : contract.invariant (unlinked state name) ∧ contract.guarantee state (unlinked state name)) :
    (artifacts.removeVerifiedFile name file.inode).Meets contract state fun result after =>
      match result with
      | .ok _ => after = unlinked state name
      | .error _ => after = state ∧ contract.Faulty := by
  have failed : contract.Faulty → state = state ∧ contract.Faulty := fun faulty => ⟨rfl, faulty⟩
  refine meets_bind_observing invariant (fingerprintOf_observes failed ?_)
  refine childFileFingerprint_observes.meets_bind invariant ?_ ?_
  · intro current found
    cases opens.unique found
    refine meets_bind_observing invariant (observes_require ?_ ?_)
    · intro _
      refine meets_atomic invariant stays failed ?_ ?_
      · intro _ next done
        rw [show (state.storage.directory .artifacts).find name = _ from opens.1] at done
        cases done
        exact ⟨unlinks.1, unlinks.2, rfl⟩
      · intro other refused
        rw [show (state.storage.directory .artifacts).find name = _ from opens.1] at refused
        cases refused
    · intro differs
      exact absurd (beq_self_eq_true _) differs
  · intro fault refused
    rcases refused with faulty | missing
    · exact failed faulty
    · exact absurd opens (missing file)

/-- Unlinking the verified file ends with it gone, unless a call fails or the directory cannot be searched. -/
theorem recheckAndRemove_meets {byteSize maximumEntries : Nat} {digest : Digest} {file : MetadataFingerprint}
    (invariant : contract.invariant state) (stays : contract.guarantee state state)
    (verified : state.storage.Verified name byteSize digest file)
    (unlinks : contract.invariant (unlinked state name) ∧ contract.guarantee state (unlinked state name)) :
    (VerifiedManagedArtifact.recheckAndRemove file name maximumEntries).Meets contract state fun result after =>
      match result with
      | .ok _ => after = unlinked state name
      | .error _ => Crowded contract state .artifacts maximumEntries .never := by
  obtain ⟨opens, single, _, _⟩ := verified
  have current : state.storage.fingerprint file.inode = file ∧ (state.storage.fingerprint file.inode).hasSingleLink = true :=
    ⟨opens.2.symm, opens.2 ▸ single⟩
  refine meets_bind_observing invariant (fingerprintOf_observes .inl ?_)
  refine meets_bind_observing invariant (observes_require ?_ fun changed => absurd current changed)
  intro _
  refine meets_bind_observing invariant (fingerprintOf_observes .inl ?_)
  refine meets_bind_observing invariant (observes_require ?_ fun changed => absurd current changed)
  intro _
  refine openManagedFile_observes.meets_bind invariant ?_ ?_
  · intro reopened found
    cases opens.unique found
    refine meets_bind_observing invariant (observes_require ?_ fun differs => absurd rfl differs)
    intro _
    refine meets_bind ((removeVerifiedFile_meets invariant stays opens unlinks).mono ?_)
    intro result after _ removed
    cases result with
    | error fault => exact .inl removed.2
    | ok _ =>
      obtain rfl := removed
      refine openManagedFileByName_observes.meets_bind unlinks.1 ?_ ?_
      · intro left found
        cases opens_unlinked found
        exact meets_require unlinks.1 (fun _ => rfl) fun present => absurd rfl present
      · intro fault refused
        rcases refused with faulty | ⟨entry, present, _⟩
        · exact .inl faulty
        · cases ((find_remove name).trans (if_pos rfl)).symm.trans present
  · intro fault refused
    rcases refused with crowded | ⟨entry, present, irregular⟩
    · exact crowded
    · cases opens.1.symm.trans present
      exact absurd rfl (irregular _)

theorem confirmManagedFileAbsent_observes {maximumEntries : Nat} (absent : state.storage.artifacts.find name = none) :
    (artifacts.confirmManagedFileAbsent name maximumEntries).Observes contract state fun answer =>
      ∀ fault, answer = .error fault → Crowded contract state .artifacts maximumEntries .never := by
  refine hasExactEntryName_observes.bind ?_ (fun _ crowded _ _ => crowded)
  intro (present, full) scanned
  apply observes_bind
  refine inspectEntry_observes (fun faulty _ _ => .inl faulty) ?_
  refine observes_require (fun _ _ failed => nomatch failed) ?_
  intro differs
  exact absurd ⟨scanned.1.mpr absent, absent⟩ differs

/-- After the unlink step the final file is gone, unless a call failed or the directory could not be searched. -/
theorem unlinkPrepared_meets (invariant : contract.invariant state) (stays : contract.guarantee state state)
    (finds : Finds state.storage request verified)
    (unlinks : contract.invariant (unlinked state request.selection.installed.artifactDigest.asStr) ∧
      contract.guarantee state (unlinked state request.selection.installed.artifactDigest.asStr)) :
    (unlinkPrepared limits request.selection.installed.artifactDigest.asStr verified).Meets contract state fun result after =>
      match result with
      | .ok _ => after.store = state.store ∧ after.storage.artifacts.find request.selection.installed.artifactDigest.asStr = none
      | .error _ => Crowded contract state .artifacts limits.maximumStorageEntries.toNat .never := by
  have finish : ∀ after, contract.invariant after → after.store = state.store →
      after.storage.artifacts.find request.selection.installed.artifactDigest.asStr = none →
      (do sync.mapError (annotateStorageError "directory sync".toList)
          validateLayout.mapError (annotateStorageError "layout recheck".toList) : StorageCall Unit).Meets contract after
        fun result final =>
          match result with
          | .ok _ => final.store = state.store ∧ final.storage.artifacts.find request.selection.installed.artifactDigest.asStr = none
          | .error _ => Crowded contract state .artifacts limits.maximumStorageEntries.toNat .never := by
    intro after kept same absent
    refine meets_bind_observing kept (observes_mapError (touch_observes .inl ?_))
    exact meets_mapError (meets_query kept .inl ⟨same, absent⟩)
  cases verified with
  | some file =>
    refine meets_bind (meets_mapError ((recheckAndRemove_meets invariant stays finds unlinks).mono ?_))
    intro result after kept removed
    cases result with
    | error fault => exact removed
    | ok _ =>
      obtain rfl := removed
      exact finish _ kept rfl ((find_remove _).trans (if_pos rfl))
  | none =>
    refine (confirmManagedFileAbsent_observes finds).meets_bind invariant ?_ ?_
    · intro _ _
      exact finish state invariant rfl finds
    · intro fault refused
      exact refused fault rfl

theorem finishPrepared_upholds (consistent : Consistent excused state) (prepared : state.RemovalPrepared request.selection)
    (finds : Finds state.storage request verified) :
    (finishPrepared limits request verified).Upholds (serviceContract excused (.remove limits request)) state fun _ _ => True := by
  have meets : (unlinkPrepared limits request.selection.installed.artifactDigest.asStr verified).Meets
      (serviceContract excused (.remove limits request)) state _ :=
    unlinkPrepared_meets consistent (Permitted.refl _ state) finds (consistent.unlink prepared limits)
  have removed : (unlinkPrepared limits request.selection.installed.artifactDigest.asStr verified).Upholds
      (serviceContract excused (.remove limits request)) state fun _ _ => True := meets.mono fun _ _ _ _ _ _ => trivial
  refine removed.mapError.bind ?_
  intro _ after kept _
  have completed : (transactStore (fun fault => ArtifactRemovalError.recoveryRequired (.state fault)) fun store =>
      store.completeArtifactRemoval request.selection).Upholds (serviceContract excused (.remove limits request)) after
      fun _ _ => True := by
    refine transactStore_upholds kept ?_
    intro disposition store done
    obtain ⟨last, permitted⟩ := kept.complete (.remove limits request) done
    exact ⟨last, permitted, trivial⟩
  refine completed.bind ?_
  intro _ final last _
  exact upholds_pure last trivial

theorem recheckBeforePreparation_readOnly : (recheckBeforePreparation limits name verified).ReadOnly := by
  refine ensureNotCancelled_readOnly.bind fun _ => ?_
  refine validateLayout_readOnly.mapError.bind fun _ => ?_
  cases verified with
  | none => exact readOnly_done
  | some file =>
    refine Program.ReadOnly.mapError (readOnly_query.bind fun _ => readOnly_require.bind fun _ => ?_)
    intro contract state
    exact recheckManagedFile_observes.mono fun _ _ => trivial

theorem removePrepared_upholds {recovering : Bool} (consistent : Consistent excused state) (accepted : validateRequest request = .ok ())
    (admitted : request.selection.installed.byteSize ≤ limits.maximumArtifactBytes.toNat) :
    (removePrepared limits request recovering).Upholds (serviceContract excused (.remove limits request)) state fun _ _ => True := by
  refine verify_observes.mapError.upholds_bind consistent ?_
  intro verified found
  have finds : Finds state.storage request verified := found verified rfl
  have prepared : (do
      let preparation ← transactStore mapStoreError fun store => store.prepareArtifactRemoval request.selection
      if preparation = .alreadyCompleted then pure ⟨request.selection, .alreadyRemoved⟩
      else do
        finishPrepared limits request verified
        pure ⟨request.selection, if recovering then .recovered else .removed⟩ : RemovalCall ArtifactRemovalResult).Upholds
      (serviceContract excused (.remove limits request)) state fun _ _ => True := by
    have transacted : (transactStore mapStoreError fun store => store.prepareArtifactRemoval request.selection).Upholds
        (serviceContract excused (.remove limits request)) state fun disposition after =>
          after.storage = state.storage ∧ (disposition ≠ .alreadyCompleted → after.RemovalPrepared request.selection) := by
      refine transactStore_upholds consistent ?_
      intro disposition store done
      obtain ⟨kept, permitted, ready⟩ := consistent.prepare (finds.resumable accepted) admitted done
      exact ⟨kept, permitted, rfl, ready⟩
    refine transacted.bind ?_
    intro disposition after kept holds
    obtain ⟨same, ready⟩ := holds
    split
    · exact upholds_pure kept trivial
    next unfinished =>
      refine (finishPrepared_upholds kept (ready unfinished) (same ▸ finds)).bind ?_
      intro _ final last _
      exact upholds_pure last trivial
  cases recovering with
  | true => exact prepared
  | false => exact recheckBeforePreparation_readOnly.upholds_bind consistent fun _ => prepared

theorem remove_upholds (consistent : Consistent excused state) :
    (remove limits request).Upholds (serviceContract excused (.remove limits request)) state fun _ _ => True := by
  have checked : (Program.done (validateRequest request)).Observes (serviceContract excused (.remove limits request)) state
      fun answer => answer = .ok () → validateRequest request = .ok () := observes_done id
  refine checked.upholds_bind consistent ?_
  intro _ accepted
  refine validateLayout_readOnly.mapError.upholds_bind consistent fun _ => ?_
  refine readArtifact_observes.upholds_bind consistent ?_
  intro (current, removal) _
  dsimp only
  split
  · exact upholds_pure consistent trivial
  · refine meets_bind_observing consistent (observes_require ?_ fun _ _ failed => nomatch failed)
    intro admitted
    refine readOnly_require.upholds_bind consistent fun _ => ?_
    split
    · exact removePrepared_upholds consistent (accepted rfl) admitted
    · refine ensureNotCancelled_readOnly.upholds_bind consistent fun _ => ?_
      refine ensureNotCancelled_readOnly.upholds_bind consistent fun _ => ?_
      exact removePrepared_upholds consistent (accepted rfl) admitted

end Removal

theorem ServiceCall.perform_upholds (call : ServiceCall) (consistent : Consistent excused state) :
    call.perform.Upholds (serviceContract excused call) state fun _ _ => True := by
  cases call with
  | openImport limits =>
    refine (openService_upholds consistent).attempt.bind ?_
    intro _ after kept _
    exact upholds_pure kept trivial
  | importArtifact limits names request =>
    refine (importArtifact_upholds consistent).attempt.bind ?_
    intro _ after kept _
    exact upholds_pure kept trivial
  | remove limits request =>
    refine (remove_upholds consistent).attempt.bind ?_
    intro _ after kept _
    exact upholds_pure kept trivial
  | reconcile limits request =>
    refine (reconcile_upholds consistent).attempt.bind ?_
    intro _ after kept _
    exact upholds_pure kept trivial

end Retonr
