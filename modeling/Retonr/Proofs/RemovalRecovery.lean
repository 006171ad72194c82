import Retonr.Proofs.ManagedServices

/-! A removal left prepared is finished by one undisturbed retry, and over every sequence of service
calls, with failures and crashes anywhere, the managed bytes and the lifecycle state agree. -/

namespace Retonr
open Text Crash ManagedState ArtifactStorage ArtifactStateStore List

section Retry
open ArtifactRemoval

variable {state : ManagedState} {selection : StoredArtifactInstallation} {limits : ArtifactRemovalLimits} {store : ArtifactStateStore}

theorem encode_removal (valid : selection.installed.validate = .ok ()) (small : selection.installed.byteSize < 2 ^ 64)
    (phase : ArtifactRemovalPhase) : ∃ record, (⟨selection, phase⟩ : StoredArtifactRemoval).encode = .ok record := by
  have key : byteLen selection.installed.storageKey ≤ 128 := by
    have checked := (InstalledArtifact.validate_eq_ok.mp valid).2.1
    simp only [validStorageKey, Bool.and_eq_true, decide_eq_true_eq] at checked
    exact checked.1.2
  have size := Json.byteLen_number_le (show 0 < 20 by decide) (Nat.lt_trans small (by decide))
  have epoch := Json.byteLen_number_le (show 0 < 20 by decide) (Nat.lt_of_le_of_lt selection.epoch.bounded (by decide))
  have schema := Json.byteLen_number_le (show 0 < 20 by decide) (show removalRecordSchemaVersion < 10 ^ 20 by decide)
  have named : byteLen phase.key ≤ 9 := by cases phase <;> decide
  have phaseText := Json.byteLen_string_le phase.key
  have identity := Json.byteLen_string_le selection.installed.artifactId.digest.asStr
  have digest := Json.byteLen_string_le selection.installed.artifactDigest.asStr
  have keyText := Json.byteLen_string_le selection.installed.storageKey
  have identityLength := selection.installed.artifactId.digest.byteLen_asStr
  have digestLength := selection.installed.artifactDigest.byteLen_asStr
  have installed : byteLen selection.installed.toJson ≤ 10000 := by
    refine Nat.le_trans (Json.byteLen_object_le _) ?_
    have names : byteLen "artifact_id".toList = 11 ∧ byteLen "artifact_digest".toList = 15 ∧ byteLen "byte_size".toList = 9 ∧
        byteLen "storage_key".toList = 11 := by decide
    simp only [map_cons, map_nil, sum_cons, sum_nil, names]
    omega
  have fits : byteLen (ArtifactRemovalRecord.toJson
      ⟨removalRecordSchemaVersion, selection.installed, selection.epoch.get, phase⟩) ≤ maxRecordBytes := by
    refine Nat.le_trans (Json.byteLen_object_le _) ?_
    have names : byteLen "schema_version".toList = 14 ∧ byteLen "installed".toList = 9 ∧ byteLen "installation_epoch".toList = 18 ∧
        byteLen "phase".toList = 5 := by decide
    simp only [map_cons, map_nil, sum_cons, sum_nil, names, maxRecordBytes]
    omega
  simp only [StoredArtifactRemoval.encode, encodeRecord, Nat.not_lt.mpr fits, if_false]
  exact ⟨_, rfl⟩

/-- On a sound store a prepared removal is completed at once. -/
theorem ArtifactStateStore.Lifecycle.complete_prepared (lifecycle : store.Lifecycle)
    (loaded : Loaded store selection.installed.artifactId none (some ⟨selection, .prepared⟩)) (small : selection.installed.byteSize < 2 ^ 64) :
    ∃ following, store.completeArtifactRemoval selection = .ok (.completed, following) ∧
      following.artifactRemovalState selection.installed.artifactId = .ok (none, some ⟨selection, .completed⟩) := by
  obtain ⟨valid, _, manifest, described, _⟩ := loaded.journaled rfl
  obtain ⟨record, encoded⟩ := encode_removal valid small .completed
  refine ⟨store.withCompleted selection, ?_, artifactRemovalState_eq_ok.mpr loaded.withCompleted⟩
  have written : store.writeRemoval ⟨selection, .completed⟩ = .ok (store.withCompleted selection) := by
    cases done : store.writeRemoval ⟨selection, .completed⟩ with
    | ok following => rw [writeRemoval_cases done]; rfl
    | error fault => simp [writeRemoval, encoded, described] at done
  simp [ArtifactStateStore.completeArtifactRemoval, loaded.installed, loaded.journal, loaded.valid, lifecycle.unbound loaded, written, Except.require]

/-- What a retry must find, and what it must leave. -/
structure Recovered (selection : StoredArtifactInstallation) (result : Except ArtifactRemovalError ArtifactRemovalResult)
    (after : ManagedState) : Prop where
  result : result = .ok ⟨selection, .recovered⟩
  completed : after.store.artifactRemovalState selection.installed.artifactId = .ok (none, some ⟨selection, .completed⟩)
  absent : after.storage.artifacts.find selection.installed.artifactDigest.asStr = none

theorem not_crowded (room : state.storage.artifacts.rows.length < limits.maximumStorageEntries.toNat) :
    ¬ Crowded .calm state .artifacts limits.maximumStorageEntries.toNat .never := by
  rintro (faulty | caller | full)
  · exact Contract.not_faulty_calm faulty
  · cases caller
  · exact absurd room (Nat.not_lt.mpr full)

theorem finishPrepared_recovers {verified : Option MetadataFingerprint} (lifecycle : state.store.Lifecycle)
    (prepared : state.RemovalPrepared selection) (finds : Finds state.storage ⟨selection⟩ verified)
    (small : selection.installed.byteSize < 2 ^ 64) (room : state.storage.artifacts.rows.length < limits.maximumStorageEntries.toNat) :
    (finishPrepared limits ⟨selection⟩ verified).Meets .calm state fun result after => result = .ok () ∧
      after.store.artifactRemovalState selection.installed.artifactId = .ok (none, some ⟨selection, .completed⟩) ∧
      after.storage.artifacts.find selection.installed.artifactDigest.asStr = none := by
  have meets : (unlinkPrepared limits selection.installed.artifactDigest.asStr verified).Meets .calm state _ :=
    unlinkPrepared_meets trivial trivial finds ⟨trivial, trivial⟩
  refine Program.meets_bind (Program.meets_mapError (meets.mono ?_))
  intro result after _ removed
  cases result with
  | error fault => exact absurd removed (not_crowded room)
  | ok _ =>
    obtain ⟨same, absent⟩ := removed
    obtain ⟨following, completed, read⟩ := lifecycle.complete_prepared (artifactRemovalState_eq_ok.mp prepared) small
    refine Program.meets_bind (transactStore_meets trivial trivial ?_ ?_ ?_)
    · intro faulty
      exact absurd faulty Contract.not_faulty_calm
    · intro disposition store done
      rw [same] at done
      cases completed.symm.trans done
      exact ⟨trivial, trivial, Program.meets_pure trivial ⟨rfl, read, absent⟩⟩
    · intro fault refused
      rw [same] at refused
      cases completed.symm.trans refused

theorem removePrepared_recovers (lifecycle : state.store.Lifecycle) (prepared : state.RemovalPrepared selection)
    (resumable : state.storage.Resumable selection) (small : selection.installed.byteSize < 2 ^ 64)
    (room : state.storage.artifacts.rows.length < limits.maximumStorageEntries.toNat) :
    (removePrepared limits ⟨selection⟩ true).Meets .calm state (Recovered selection) := by
  have found : (verify limits ⟨selection⟩ true).Observes .calm state _ := verify_observes
  refine Program.meets_bind_observing trivial (Program.observes_mapError (found.mono ?_))
  intro answer verification
  cases answer with
  | error fault =>
    -- The file is absent or exact, so the verification has nothing to refuse.
    exfalso
    rcases verification rfl with crowded | large | ⟨present, unverified⟩
    · exact not_crowded room crowded
    · exact absurd small (Nat.not_lt.mpr large)
    · rcases resumable.file with absent | ⟨file, verified⟩
      · exact present absent
      · exact unverified file verified
  | ok verified =>
    have again := lifecycle.prepare_again (artifactRemovalState_eq_ok.mp prepared)
    simp only [Except.mapError, if_true]
    refine Program.meets_bind (transactStore_meets trivial trivial ?_ ?_ ?_)
    · intro faulty
      exact absurd faulty Contract.not_faulty_calm
    · intro disposition store done
      cases again.symm.trans done
      refine ⟨trivial, trivial, Program.meets_bind ((finishPrepared_recovers lifecycle prepared verification small room).mono ?_)⟩
      intro result after _ finished
      obtain ⟨rfl, completed, absent⟩ := finished
      exact Program.meets_pure trivial ⟨rfl, completed, absent⟩
    · intro fault refused
      cases again.symm.trans refused

/-- A retry that nothing disturbs finishes a prepared removal, whatever the caller's cancellation says. -/
theorem remove_recovers (lifecycle : state.store.Lifecycle) (prepared : state.RemovalPrepared selection)
    (resumable : state.storage.Resumable selection) (admitted : selection.installed.byteSize ≤ limits.maximumArtifactBytes.toNat)
    (room : state.storage.artifacts.rows.length < limits.maximumStorageEntries.toNat) :
    (remove limits ⟨selection⟩).Meets .calm state (Recovered selection) := by
  have small : selection.installed.byteSize < 2 ^ 64 := Nat.lt_of_le_of_lt admitted limits.maximumArtifactBytes.toNat_lt
  have accepted : (Program.done (validateRequest ⟨selection⟩)).Observes .calm state fun answer => answer = .ok () :=
    Program.observes_done resumable.accepted
  refine accepted.meets_bind trivial ?_ (fun _ failed => nomatch failed)
  intro _ _
  have calm : ∀ {facts : Prop}, (Contract.calm : Contract ManagedState).Faulty → facts := fun faulty => absurd faulty Contract.not_faulty_calm
  refine Program.meets_bind_observing trivial (Program.observes_mapError (validateLayout_observes calm ?_))
  refine Program.meets_bind_observing trivial (readStore_observes calm ?_)
  rw [show state.store.artifactRemovalState selection.installed.artifactId = _ from prepared]
  have unfinished : inPhase (some ⟨selection, .prepared⟩) selection .completed = false := by simp [inPhase]
  have recovering : inPhase (some ⟨selection, .prepared⟩) selection .prepared = true := by simp [inPhase]
  simp only [Except.mapError, unfinished, recovering, Bool.false_eq_true, if_false, if_true]
  refine Program.meets_bind_observing trivial (Program.observes_require ?_ fun large => absurd admitted large)
  intro _
  refine Program.meets_bind_observing trivial (Program.observes_require ?_ fun stale => absurd (.inl recovering) stale)
  intro _
  exact removePrepared_recovers lifecycle prepared resumable small room

end Retry

variable {excused : StoredArtifactInstallation → Prop}

theorem performAll_consistent (calls : List (ServiceCall × Script)) {state : ManagedState} (consistent : Consistent excused state) :
    (∀ point ∈ (performAll state calls).states, Consistent excused point) ∧
      ∀ step ∈ (performAll state calls).steps, Permitted step.call step.before step.after := by
  induction calls generalizing state with
  | nil =>
    refine ⟨?_, fun step impossible => absurd impossible not_mem_nil⟩
    intro point member
    rcases mem_cons.mp member with rfl | impossible
    · exact consistent
    · exact absurd impossible not_mem_nil
  | cons entry calls ih =>
    obtain ⟨call, script⟩ := entry
    have plays : (serviceContract excused call).Plays script := fun _ _ => trivial
    have keeps := call.perform_upholds consistent script plays
    obtain ⟨later, permitted⟩ := ih keeps.invariant
    constructor
    · intro point member
      rcases mem_cons.mp member with rfl | earlier
      · exact later _ mem_cons_self
      · obtain ⟨step, made, rfl⟩ := mem_map.mp earlier
        rcases mem_append.mp made with now | after
        · obtain ⟨change, changed, rfl⟩ := mem_map.mp now
          exact (keeps.changes change changed).1
        · exact later _ (mem_cons_of_mem _ (mem_map_of_mem after))
    · intro step made
      rcases mem_append.mp made with now | after
      · obtain ⟨change, changed, rfl⟩ := mem_map.mp now
        exact (keeps.changes change changed).2
      · exact permitted step after

/-- Import, removal and reconciliation in any sequence, each cut short or failing anywhere, from a store with any history
whose installed artifacts have their exact bytes. In every state on the way they still have them; managed bytes go away
only in a removal, while it is prepared for exactly the requested generation; a removal is prepared only by a call for it
whose limit admits the artifact; and from every state on the way one undisturbed retry finishes a prepared removal, unless
it was prepared from the start over bytes that are not its own. -/
theorem managed_bytes_and_lifecycle_agree (history : List StoreCall) (storage : ArtifactStorage) (calls : List (ServiceCall × Script))
    (exact : ExactBytes ⟨storage, empty.run history⟩) : (∀ point ∈ (performAll ⟨storage, empty.run history⟩ calls).states, ExactBytes point) ∧
    (∀ step ∈ (performAll ⟨storage, empty.run history⟩ calls).steps, ∀ name bytes,
      step.before.storage.managedBytes name = some bytes → step.after.storage.managedBytes name ≠ some bytes →
      ∃ limits request, step.call = .remove limits request ∧ name = request.selection.installed.artifactDigest.asStr ∧
        step.before.RemovalPrepared request.selection) ∧ (∀ step ∈ (performAll ⟨storage, empty.run history⟩ calls).steps, ∀ selection,
      ¬ step.before.RemovalPrepared selection → step.after.RemovalPrepared selection →
      ∃ limits, step.call = .remove limits ⟨selection⟩ ∧ selection.installed.byteSize ≤ limits.maximumArtifactBytes.toNat) ∧
    ∀ point ∈ (performAll ⟨storage, empty.run history⟩ calls).states, ∀ selection limits signals, point.RemovalPrepared selection →
      (ManagedState.RemovalPrepared ⟨storage, empty.run history⟩ selection → storage.Resumable selection) →
      selection.installed.byteSize ≤ limits.maximumArtifactBytes.toNat →
      point.storage.artifacts.rows.length < limits.maximumStorageEntries.toNat →
      (ArtifactRemoval.remove limits ⟨selection⟩ ⟨[], signals⟩ point).ending = .done (.ok ⟨selection, .recovered⟩) ∧
      (ArtifactRemoval.remove limits ⟨selection⟩ ⟨[], signals⟩ point).final.store.artifactRemovalState
        selection.installed.artifactId = .ok (none, some ⟨selection, .completed⟩) ∧
      (ArtifactRemoval.remove limits ⟨selection⟩ ⟨[], signals⟩ point).final.storage.artifacts.find
        selection.installed.artifactDigest.asStr = none := by
  let stuck (selection : StoredArtifactInstallation) : Prop :=
    ManagedState.RemovalPrepared ⟨storage, empty.run history⟩ selection ∧ ¬ storage.Resumable selection
  have start : Consistent stuck ⟨storage, empty.run history⟩ := by
    refine ⟨Lifecycle.initial.run history, exact, ?_⟩
    intro selection prepared
    by_cases resumable : storage.Resumable selection
    · exact .inr resumable
    · exact .inl ⟨prepared, resumable⟩
  obtain ⟨consistent, permitted⟩ := performAll_consistent calls start
  refine ⟨fun point member => (consistent point member).exact, ?_, ?_, ?_⟩
  · intro step made name bytes found lost
    exact ((permitted step made).bytes name bytes found).resolve_left lost
  · intro step made selection before after
    exact ((permitted step made).preparations selection after).resolve_left before
  · intro point member selection limits signals prepared unstuck admitted room
    have resumable : point.storage.Resumable selection := by
      rcases (consistent point member).resumable selection prepared with ⟨early, bad⟩ | good
      · exact absurd (unstuck early) bad
      · exact good
    obtain ⟨result, ended, rfl, completed, absent⟩ :=
      (remove_recovers (consistent point member).lifecycle prepared resumable admitted room).completes signals
    exact ⟨ended, completed, absent⟩

/-- An artifact of one byte. -/
def letterManifest : ArtifactManifest where
  schemaVersion := 1
  artifactId := ⟨Digest.sha256 [0x61]⟩
  source := ⟨"local".toList, "1".toList⟩
  artifactDigest := Digest.sha256 [0x61]
  byteSize := 1
  format := "gguf".toList
  family := "letter".toList
  architecture := none
  quantization := none
  tokenizer := none
  licenses := [⟨"weights".toList, "MIT".toList, Digest.sha256 []⟩]
  declaredCapabilities := ⟨[.generation], [], none⟩

def letterInstalled : InstalledArtifact := OfflineArtifactImport.installedFrom letterManifest

def letterStorage : ArtifactStorage where
  artifacts := Table.empty.upsert letterManifest.artifactDigest.asStr (.regular 1)
  staging := .empty
  contents := fun _ => [0x61]

/-- The letter is installed, and its removal is stopped at the unlink after it was prepared. -/
theorem stopped_removal_keeps_the_letter_consistent : ExactBytes ⟨letterStorage, empty.run [.putInstallation letterManifest letterInstalled]⟩ ∧
    ∀ point ∈ (performAll ⟨letterStorage, empty.run [.putInstallation letterManifest letterInstalled]⟩
      [(.remove ⟨1, 2⟩ ⟨⟨letterInstalled, .first⟩⟩, ⟨List.replicate 42 .succeeds ++ [.stops 0], []⟩)]).states, ExactBytes point := by
  have exact : ExactBytes ⟨letterStorage, empty.run [.putInstallation letterManifest letterInstalled]⟩ := by
    intro artifactId current removal read
    have rows : (empty.run [.putInstallation letterManifest letterInstalled]).installedArtifacts =
        Table.empty.upsert letterManifest.artifactId.digest ⟨1, letterInstalled⟩ := by decide +kernel
    obtain ⟨found, _, _⟩ := loadInstallation_eq_some.mp (artifactRemovalState_eq_ok.mp read).installed
    rw [rows, Table.find_upsert] at found
    split at found
    · obtain ⟨_, same⟩ := InstalledRow.mk.inj (Option.some.inj found)
      rw [← same]
      exact ⟨[0x61], managedBytes_eq_some.mpr ⟨1, (Table.find_upsert ..).trans (if_pos rfl), rfl⟩, rfl, rfl⟩
    · cases found
  exact ⟨exact, (managed_bytes_and_lifecycle_agree _ letterStorage _ exact).1⟩

end Retonr
