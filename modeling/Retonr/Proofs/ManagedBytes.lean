import Retonr.App.ArtifactServices
import Retonr.Proofs.ManagedStorage
import Retonr.Proofs.RemovalGenerations

/-! The managed bytes and the lifecycle state stay consistent through every step of every service
call: an installed artifact keeps its exact bytes, and a prepared removal can be resumed. -/

namespace Retonr
open Text Crash

namespace ArtifactStorage

variable {before after storage : ArtifactStorage} {touched : Text → Prop} {name : Text} {inode : Nat}

/-- The bytes of the final file of this name. -/
def managedBytes (storage : ArtifactStorage) (name : Text) : Option Bytes :=
  match storage.artifacts.find name with
  | some (.regular inode) => some (storage.contents inode)
  | _ => none

theorem managedBytes_eq_some {bytes : Bytes} :
    storage.managedBytes name = some bytes ↔ ∃ inode, storage.artifacts.find name = some (.regular inode) ∧ storage.contents inode = bytes := by
  unfold managedBytes
  split
  next inode found => simp [found]
  next irregular =>
    simp only [reduceCtorEq, false_iff, not_exists, not_and]
    intro inode found
    exact absurd found (irregular inode)

/-- The managed bytes of the artifact are those its record describes. -/
def HasExactBytes (storage : ArtifactStorage) (installed : InstalledArtifact) : Prop :=
  ∃ bytes, storage.managedBytes installed.artifactDigest.asStr = some bytes ∧ bytes.length = installed.byteSize ∧
    Digest.sha256 bytes = installed.artifactDigest

/-- A removal of the selected generation finds either exactly its bytes or none. -/
structure Resumable (storage : ArtifactStorage) (selection : StoredArtifactInstallation) : Prop where
  accepted : ArtifactRemoval.validateRequest ⟨selection⟩ = .ok ()
  file : storage.artifacts.find selection.installed.artifactDigest.asStr = none ∨
    ∃ file, storage.Verified selection.installed.artifactDigest.asStr selection.installed.byteSize selection.installed.artifactDigest file

theorem linkCount_eq_one (found : storage.artifacts.find name = some (.regular inode)) :
    storage.linkCount inode = 1 ↔ (∀ other, storage.artifacts.find other = some (.regular inode) → other = name) ∧
      ∀ other, storage.staging.find other ≠ some (.regular inode) := by
  have final : 0 < storage.artifacts.rows.countP fun entry => entry.2 == .regular inode :=
    List.countP_pos_iff.mpr ⟨_, (Table.mem_rows_iff ..).mpr found, beq_self_eq_true _⟩
  have unstaged : storage.staging.rows.countP (fun entry => entry.2 == .regular inode) = 0 ↔
      ∀ other, storage.staging.find other ≠ some (.regular inode) := by
    simp only [List.countP_eq_zero, beq_iff_eq, Prod.forall, Table.mem_rows_iff]
    constructor
    · intro none other staged
      exact none other _ staged rfl
    · intro none other entry staged same
      exact none other (same ▸ staged)
  rw [linkCount, rows, List.countP_append, ← storage.artifacts.countP_eq_one found, ← unstaged]
  omega

theorem single_of_fewer (found : before.artifacts.find name = some (.regular inode)) (stays : after.artifacts.find name = some (.regular inode))
    (final : ∀ other, after.artifacts.find other = some (.regular inode) → before.artifacts.find other = some (.regular inode))
    (staged : ∀ other, after.staging.find other = some (.regular inode) → before.staging.find other = some (.regular inode))
    (single : before.linkCount inode = 1) : after.linkCount inode = 1 := by
  obtain ⟨only, unstaged⟩ := (linkCount_eq_one found).mp single
  refine (linkCount_eq_one stays).mpr ⟨?_, ?_⟩
  · intro other present
    exact only other (final other present)
  · intro other present
    exact unstaged other (staged other present)

/-- The change leaves every final file alone except under the touched names. -/
structure Spares (touched : Text → Prop) (before after : ArtifactStorage) : Prop where
  entries : ∀ name, ¬ touched name → after.artifacts.find name = before.artifacts.find name
  contents : ∀ name inode, ¬ touched name → before.artifacts.find name = some (.regular inode) →
    after.contents inode = before.contents inode
  links : ∀ name inode, ¬ touched name → before.artifacts.find name = some (.regular inode) → before.linkCount inode = 1 →
    after.linkCount inode = 1

namespace Spares

section
variable (spares : Spares touched before after)
include spares

theorem managedBytes {bytes : Bytes} (untouched : ¬ touched name)
    (found : before.managedBytes name = some bytes) : after.managedBytes name = some bytes := by
  rw [managedBytes_eq_some] at found ⊢
  obtain ⟨inode, present, same⟩ := found
  exact ⟨inode, (spares.entries name untouched).trans present, (spares.contents name inode untouched present).trans same⟩

theorem hasExactBytes {installed : InstalledArtifact}
    (untouched : ¬ touched installed.artifactDigest.asStr) (exact : before.HasExactBytes installed) : after.HasExactBytes installed := by
  obtain ⟨bytes, found, facts⟩ := exact
  exact ⟨bytes, spares.managedBytes untouched found, facts⟩

theorem verified {byteSize : Nat} {digest : Digest} {file : MetadataFingerprint}
    (untouched : ¬ touched name) (verified : before.Verified name byteSize digest file) : after.Verified name byteSize digest file := by
  obtain ⟨⟨present, print⟩, single, length, same⟩ := verified
  have contents := spares.contents name _ untouched present
  have linked : before.linkCount file.inode = 1 := by
    rw [print] at single
    simpa [MetadataFingerprint.hasSingleLink, fingerprint] using single
  have unchanged : after.fingerprint file.inode = before.fingerprint file.inode := by
    simp only [fingerprint, contents, linked, spares.links name _ untouched present linked]
  exact ⟨⟨(spares.entries name untouched).trans present, print.trans unchanged.symm⟩, single, by rw [contents, length],
    by rw [contents, same]⟩

theorem resumable {selection : StoredArtifactInstallation}
    (untouched : ¬ touched selection.installed.artifactDigest.asStr) (resumable : before.Resumable selection) : after.Resumable selection := by
  refine ⟨resumable.accepted, ?_⟩
  rcases resumable.file with absent | ⟨file, verified⟩
  · exact .inl ((spares.entries _ untouched).trans absent)
  · exact .inr ⟨file, spares.verified untouched verified⟩

end

/-- A change of the staging directory, or of bytes no final file refers to. -/
theorem of_staging (artifacts : after.artifacts = before.artifacts)
    (contents : ∀ name inode, before.artifacts.find name = some (.regular inode) → after.contents inode = before.contents inode)
    (staged : ∀ name inode other, before.artifacts.find name = some (.regular inode) →
      after.staging.find other = some (.regular inode) → before.staging.find other = some (.regular inode)) :
    Spares (fun _ => False) before after := by
  refine ⟨fun name _ => by rw [artifacts], fun name inode _ => contents name inode, ?_⟩
  intro name inode _ found
  exact single_of_fewer found (artifacts ▸ found) (fun other present => artifacts ▸ present) fun other => staged name inode other found

theorem unstage : Spares (fun _ => False) storage (storage.remove .staging name) := by
  refine of_staging rfl (fun _ _ _ => rfl) ?_
  intro _ inode other _ present
  have kept : ((storage.staging.deleteWhere fun key _ => key == name).find other) = some (.regular inode) := present
  rw [Table.find_deleteWhere, Option.filter_eq_some_iff] at kept
  exact kept.1

end Spares

/-- No final file is this one. -/
def Apart (storage : ArtifactStorage) (inode : Nat) : Prop := ∀ name, storage.artifacts.find name ≠ some (.regular inode)

theorem Spares.write {bytes : Bytes} (apart : storage.Apart inode) : Spares (fun _ => False) storage (storage.write inode bytes) := by
  refine of_staging rfl ?_ (fun _ _ _ _ present => present)
  intro name other found
  have different : other ≠ inode := fun same => apart name (same ▸ found)
  exact Function.update_of_ne different _ _

theorem lt_freshInode (member : inode ∈ storage.inodes) : inode < storage.freshInode := by
  have bound : ∀ values : List Nat, inode ∈ values → inode ≤ values.foldr max 0 := by
    intro values
    induction values with
    | nil => exact fun absent => nomatch absent
    | cons value values ih =>
      intro member
      rcases List.mem_cons.mp member with rfl | later
      · exact Nat.le_max_left _ _
      · exact Nat.le_trans (ih later) (Nat.le_max_right _ _)
  exact Nat.lt_succ_of_le (bound _ member)

theorem apart_freshInode (storage : ArtifactStorage) : storage.Apart storage.freshInode := by
  intro name found
  have member : storage.freshInode ∈ storage.inodes := by
    refine List.mem_filterMap.mpr ⟨(name, .regular storage.freshInode), ?_, rfl⟩
    exact List.mem_append_left _ ((Table.mem_rows_iff ..).mpr found)
  exact Nat.lt_irrefl _ (lt_freshInode member)

theorem Spares.stage : Spares (fun _ => False) storage
    { storage with
      staging := storage.staging.upsert name (.regular storage.freshInode)
      contents := Function.update storage.contents storage.freshInode [] } := by
  refine of_staging rfl ?_ ?_
  · intro other inode found
    have different : inode ≠ storage.freshInode := fun same => storage.apart_freshInode other (same ▸ found)
    exact Function.update_of_ne different _ _
  · intro final inode other found present
    simp only [Table.find_upsert] at present
    split at present
    · cases present
      exact absurd found (storage.apart_freshInode final)
    · exact present

theorem Spares.link (apart : storage.Apart inode) :
    Spares (fun other => other = name) storage { storage with artifacts := storage.artifacts.upsert name (.regular inode) } := by
  refine ⟨fun other different => by simp [different], fun _ _ _ _ => rfl, ?_⟩
  intro other linked different found
  refine single_of_fewer found ?_ ?_ fun _ staged => staged
  · simp [different, found]
  · intro final present
    simp only [Table.find_upsert] at present
    split at present
    · cases present
      exact absurd found (apart other)
    · exact present

theorem find_remove (other : Text) : (storage.remove .artifacts name).artifacts.find other =
    if other = name then none else storage.artifacts.find other := by
  have kept : (storage.remove .artifacts name).artifacts = storage.artifacts.deleteWhere fun key _ => key == name := rfl
  rw [kept, Table.find_deleteWhere]
  by_cases same : other = name
  · simp [same]
  · cases storage.artifacts.find other <;> simp [same]

theorem Spares.unlink : Spares (fun other => other = name) storage (storage.remove .artifacts name) := by
  refine ⟨fun other different => by simp [find_remove, different], fun _ _ _ _ => rfl, ?_⟩
  intro other inode different found
  refine single_of_fewer found ?_ ?_ fun _ staged => staged
  · simp [find_remove, different, found]
  · intro final present
    rw [find_remove] at present
    split at present
    · cases present
    · exact present

end ArtifactStorage

theorem InstalledArtifact.validate_eq_ok {installed : InstalledArtifact} : installed.validate = .ok () ↔
    installed.byteSize ≠ 0 ∧ validStorageKey installed.storageKey = true ∧ installed.artifactId.digest = installed.artifactDigest := by
  unfold InstalledArtifact.validate
  split
  next bad =>
    simp only [reduceCtorEq, false_iff]
    rintro ⟨nonempty, key, _⟩
    rcases bad with empty | invalid
    · exact nonempty empty
    · rw [key] at invalid
      cases invalid
  next good =>
    simp only [not_or, Bool.not_eq_false] at good
    split
    next differs => simp [good, differs]
    next same => simpa [good] using same

theorem ArtifactManifest.identity_of_validate {manifest : ArtifactManifest} (valid : manifest.validate = .ok ()) :
    manifest.artifactId.digest = manifest.artifactDigest := by
  unfold ArtifactManifest.validate at valid
  by_cases same : manifest.artifactId.digest = manifest.artifactDigest
  · exact same
  · simp only [ne_eq, same, not_false_eq_true, if_true] at valid
    split at valid <;> cases valid

namespace ArtifactStateStore.Loaded

variable {store : ArtifactStateStore} {artifactId : ArtifactId} {installation : Option StoredArtifactInstallation}
  {removal : Option StoredArtifactRemoval}

theorem installed_digest (loaded : Loaded store artifactId installation removal) {current : StoredArtifactInstallation}
    (present : current ∈ installation) : current.installed.artifactDigest = artifactId.digest := by
  obtain ⟨valid, same, _⟩ := loaded.described present
  exact same ▸ (InstalledArtifact.validate_eq_ok.mp valid).2.2.symm

theorem journaled_digest (loaded : Loaded store artifactId installation removal) {last : StoredArtifactRemoval}
    (present : last ∈ removal) : last.selection.installed.artifactDigest = artifactId.digest := by
  obtain ⟨valid, same, _⟩ := loaded.journaled present
  exact same ▸ (InstalledArtifact.validate_eq_ok.mp valid).2.2.symm

end ArtifactStateStore.Loaded

namespace ManagedState
open ArtifactStateStore ArtifactStorage

/-- The journal holds this very generation as prepared. -/
def RemovalPrepared (state : ManagedState) (selection : StoredArtifactInstallation) : Prop :=
  state.store.artifactRemovalState selection.installed.artifactId = .ok (none, some ⟨selection, .prepared⟩)

/-- Every installed artifact has its exact bytes. -/
def ExactBytes (state : ManagedState) : Prop :=
  ∀ artifactId current removal, state.store.artifactRemovalState artifactId = .ok (some current, removal) →
    state.storage.HasExactBytes current.installed

/-- What holds between any two steps of the services. A removal that is excused stood prepared from the start. -/
structure Consistent (excused : StoredArtifactInstallation → Prop) (state : ManagedState) : Prop where
  lifecycle : state.store.Lifecycle
  exact : state.ExactBytes
  resumable : ∀ selection, state.RemovalPrepared selection → excused selection ∨ state.storage.Resumable selection

/-- What one step of the call may do: managed bytes go away only while their removal is prepared for exactly the
requested generation, and only a removal that its limits admit is prepared. -/
structure Permitted (call : ServiceCall) (before after : ManagedState) : Prop where
  bytes : ∀ name bytes, before.storage.managedBytes name = some bytes → after.storage.managedBytes name = some bytes ∨
    ∃ limits request, call = .remove limits request ∧ name = request.selection.installed.artifactDigest.asStr ∧
      before.RemovalPrepared request.selection
  preparations : ∀ selection, after.RemovalPrepared selection → before.RemovalPrepared selection ∨
    ∃ limits, call = .remove limits ⟨selection⟩ ∧ selection.installed.byteSize ≤ limits.maximumArtifactBytes.toNat

variable {state : ManagedState} {excused : StoredArtifactInstallation → Prop} {call : ServiceCall} {storage : ArtifactStorage}
  {store : ArtifactStateStore} {touched : Text → Prop} {name : Text} {selection : StoredArtifactInstallation}

theorem Permitted.refl (call : ServiceCall) (state : ManagedState) : Permitted call state state :=
  ⟨fun _ _ found => .inl found, fun _ prepared => .inl prepared⟩

section
variable (consistent : Consistent excused state)
include consistent

/-- A storage change that spares installed files, and under a prepared removal leaves either the same file or none. -/
theorem Consistent.spares (spares : Spares touched state.storage storage)
    (installed : ∀ artifactId current removal, state.store.artifactRemovalState artifactId = .ok (some current, removal) →
      ¬ touched current.installed.artifactDigest.asStr)
    (removed : ∀ selection, state.RemovalPrepared selection → touched selection.installed.artifactDigest.asStr →
      storage.artifacts.find selection.installed.artifactDigest.asStr = none) : Consistent excused { state with storage } := by
  refine ⟨consistent.lifecycle, ?_, ?_⟩
  · intro artifactId current removal read
    exact spares.hasExactBytes (installed artifactId current removal read) (consistent.exact artifactId current removal read)
  · intro selection prepared
    refine (consistent.resumable selection prepared).imp_right ?_
    intro resumable
    by_cases touches : touched selection.installed.artifactDigest.asStr
    · exact ⟨resumable.accepted, .inl (removed selection prepared touches)⟩
    · exact spares.resumable touches resumable

omit consistent in
theorem Permitted.spares (spares : Spares touched state.storage storage)
    (lost : ∀ name bytes, touched name → state.storage.managedBytes name = some bytes →
      ∃ limits request, call = .remove limits request ∧ name = request.selection.installed.artifactDigest.asStr ∧
        state.RemovalPrepared request.selection) : Permitted call state { state with storage } := by
  refine ⟨?_, fun _ prepared => .inl prepared⟩
  intro name bytes found
  by_cases touches : touched name
  · exact .inr (lost name bytes touches found)
  · exact .inl (spares.managedBytes touches found)

theorem Consistent.untouched (call : ServiceCall) (spares : Spares (fun _ => False) state.storage storage) :
    Consistent excused { state with storage } ∧ Permitted call state { state with storage } :=
  ⟨consistent.spares spares (fun _ _ _ _ => id) fun _ _ => False.elim, .spares spares fun _ _ => False.elim⟩

theorem Consistent.transaction (changed : ArtifactId) (lifecycle : store.Lifecycle)
    (others : ∀ artifactId, artifactId ≠ changed → store.artifactRemovalState artifactId = state.store.artifactRemovalState artifactId)
    (exact : ∀ current removal, store.artifactRemovalState changed = .ok (some current, removal) →
      state.storage.HasExactBytes current.installed) (resumable : ∀ selection, selection.installed.artifactId = changed →
      store.artifactRemovalState changed = .ok (none, some ⟨selection, .prepared⟩) → state.storage.Resumable selection) :
    Consistent excused { state with store } := by
  refine ⟨lifecycle, ?_, ?_⟩
  · intro artifactId current removal read
    by_cases same : artifactId = changed
    · subst same
      exact exact current removal read
    · exact consistent.exact artifactId current removal ((others artifactId same).symm.trans read)
  · intro selection prepared
    by_cases same : selection.installed.artifactId = changed
    · subst same
      exact .inr (resumable selection rfl prepared)
    · exact consistent.resumable selection ((others _ same).symm.trans prepared)

omit consistent in
theorem Permitted.transaction (changed : ArtifactId)
    (others : ∀ artifactId, artifactId ≠ changed → store.artifactRemovalState artifactId = state.store.artifactRemovalState artifactId)
    (prepares : ∀ selection, selection.installed.artifactId = changed →
      store.artifactRemovalState changed = .ok (none, some ⟨selection, .prepared⟩) →
      ∃ limits, call = .remove limits ⟨selection⟩ ∧ selection.installed.byteSize ≤ limits.maximumArtifactBytes.toNat) :
    Permitted call state { state with store } := by
  refine ⟨fun _ _ found => .inl found, ?_⟩
  intro selection prepared
  by_cases same : selection.installed.artifactId = changed
  · subst same
    exact .inr (prepares selection rfl prepared)
  · exact .inl ((others _ same).symm.trans prepared)

theorem Consistent.register (call : ServiceCall) {manifest : ArtifactManifest} {file : MetadataFingerprint}
    (verified : state.storage.Verified manifest.artifactDigest.asStr manifest.byteSize manifest.artifactDigest file)
    {disposition : InstallationWriteDisposition}
    (done : state.store.putInstallation manifest (OfflineArtifactImport.installedFrom manifest) = .ok (disposition, store)) :
    Consistent excused { state with store } ∧ Permitted call state { state with store } := by
  have lifecycle := consistent.lifecycle.putInstallation done
  rcases putInstallation_cases done with ⟨_, rfl, _⟩ | ⟨_, _, installs⟩
  · exact ⟨consistent, .refl call state⟩
  obtain ⟨removal, _, loaded⟩ := installs.loaded
  have read := artifactRemovalState_eq_ok.mpr loaded
  refine ⟨consistent.transaction manifest.artifactId lifecycle (fun _ => installs.others) ?_ ?_,
    .transaction manifest.artifactId (fun _ => installs.others) ?_⟩
  · intro current last again
    cases read.symm.trans again
    exact ⟨_, managedBytes_eq_some.mpr ⟨_, verified.opens.1, rfl⟩, verified.length, verified.digest⟩
  all_goals
    intro selection _ prepared
    cases read.symm.trans prepared

theorem Consistent.prepare (resumable : state.storage.Resumable selection)
    {limits : ArtifactRemovalLimits} (admitted : selection.installed.byteSize ≤ limits.maximumArtifactBytes.toNat)
    {disposition : RemovalPreparationDisposition} (done : state.store.prepareArtifactRemoval selection = .ok (disposition, store)) :
    Consistent excused { state with store } ∧ Permitted (.remove limits ⟨selection⟩) state { state with store } ∧
      (disposition ≠ .alreadyCompleted → ({ state with store } : ManagedState).RemovalPrepared selection) := by
  have lifecycle := consistent.lifecycle.prepareArtifactRemoval done
  rcases prepareArtifactRemoval_cases done with ⟨rfl, installation, removal, loaded, rfl, phase⟩ | ⟨_, rfl, _, removal, loaded, _⟩
  · refine ⟨consistent, .refl _ _, ?_⟩
    intro unfinished
    rcases phase with ⟨finished, _⟩ | ⟨_, prepared, _⟩
    · exact absurd finished unfinished
    · obtain rfl := loaded.not_installed_of_prepared rfl prepared
      obtain ⟨selection, phase⟩ := removal
      subst prepared
      exact artifactRemovalState_eq_ok.mpr loaded
  · have read := artifactRemovalState_eq_ok.mpr loaded.withPrepared
    refine ⟨consistent.transaction selection.installed.artifactId lifecycle (fun _ => withPrepared_others) ?_ ?_,
      .transaction selection.installed.artifactId (fun _ => withPrepared_others) ?_, fun _ => read⟩
    · intro current last again
      cases read.symm.trans again
    · intro other _ prepared
      cases read.symm.trans prepared
      exact resumable
    · intro other _ prepared
      cases read.symm.trans prepared
      exact ⟨limits, rfl, admitted⟩

theorem Consistent.complete (call : ServiceCall) {disposition : RemovalCompletionDisposition}
    (done : state.store.completeArtifactRemoval selection = .ok (disposition, store)) :
    Consistent excused { state with store } ∧ Permitted call state { state with store } := by
  have lifecycle := consistent.lifecycle.completeArtifactRemoval done
  obtain ⟨installation, phase, loaded, ⟨_, _, rfl⟩ | ⟨_, rfl, _, rfl⟩⟩ := completeArtifactRemoval_cases done
  · exact ⟨consistent, .refl call state⟩
  obtain rfl := loaded.not_installed_of_prepared rfl rfl
  have read := artifactRemovalState_eq_ok.mpr loaded.withCompleted
  refine ⟨consistent.transaction selection.installed.artifactId lifecycle (fun _ => withCompleted_others) ?_ ?_,
    .transaction selection.installed.artifactId (fun _ => withCompleted_others) ?_⟩
  · intro current last again
    cases read.symm.trans again
  all_goals
    intro other _ prepared
    cases read.symm.trans prepared

/-- The file of a prepared removal belongs to no installed artifact and to no other prepared removal. -/
theorem Consistent.unlink (prepared : state.RemovalPrepared selection) (limits : ArtifactRemovalLimits) :
    Consistent excused { state with storage := state.storage.remove .artifacts selection.installed.artifactDigest.asStr } ∧
      Permitted (.remove limits ⟨selection⟩) state
        { state with storage := state.storage.remove .artifacts selection.installed.artifactDigest.asStr } := by
  have loaded := artifactRemovalState_eq_ok.mp prepared
  have named := loaded.journaled_digest rfl
  refine ⟨consistent.spares .unlink ?_ ?_, .spares .unlink ?_⟩
  · intro artifactId current removal read same
    have other := (artifactRemovalState_eq_ok.mp read).installed_digest rfl
    have equal : artifactId = selection.installed.artifactId :=
      ArtifactId.eq_of_digest ((other.symm.trans (Digest.ext same)).trans named)
    subst equal
    cases prepared.symm.trans read
  · intro other _ same
    rw [find_remove, if_pos same]
  · intro name bytes same _
    exact ⟨limits, ⟨selection⟩, rfl, same, prepared⟩

end

end ManagedState

end Retonr
