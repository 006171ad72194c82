import Retonr.Proofs.ArtifactLifecycle

/-! A removal selection is good for one generation. Each artifact moves through its own small
state machine, and the store's calls are its steps. -/

namespace Retonr.ArtifactStateStore
open Retonr.Except

variable {store following : ArtifactStateStore}

abbrev ArtifactState := Option StoredArtifactInstallation × Option StoredArtifactRemoval

/-- The moves of one artifact: not installed, installed, removal prepared, removal completed, and round again. -/
inductive Transition (artifactId : ArtifactId) : StoreCall → ArtifactState → ArtifactState → Prop
  | stay (call : StoreCall) (state : ArtifactState) : Transition artifactId call state state
  | install {manifest : ArtifactManifest} {installed : InstalledArtifact} {removal : Option StoredArtifactRemoval}
      {epoch : ArtifactInstallationEpoch} (same : manifest.artifactId = artifactId) (idle : ∀ last ∈ removal, last.phase = .completed)
      (next : nextGeneration removal = .ok epoch) :
      Transition artifactId (.putInstallation manifest installed) (none, removal) (some ⟨installed, epoch⟩, removal)
  | prepare {selection : StoredArtifactInstallation} {removal : Option StoredArtifactRemoval}
      (same : selection.installed.artifactId = artifactId) :
      Transition artifactId (.prepareArtifactRemoval selection) (some selection, removal) (none, some ⟨selection, .prepared⟩)
  | complete {selection : StoredArtifactInstallation} (same : selection.installed.artifactId = artifactId) :
      Transition artifactId (.completeArtifactRemoval selection) (none, some ⟨selection, .prepared⟩)
        (none, some ⟨selection, .completed⟩)

/-- The generation the artifact has reached: the installed one, or the last removed one. -/
def generation : ArtifactState → Nat
  | (some current, _) => current.epoch.get
  | (none, some removal) => removal.selection.epoch.get
  | (none, none) => 0

variable {removal : Option StoredArtifactRemoval}

theorem generation_of_next {epoch : ArtifactInstallationEpoch}
    (next : nextGeneration removal = .ok epoch) : epoch.get = generation (none, removal) + 1 := by
  cases removal with
  | none =>
    cases next
    rfl
  | some removal => exact ArtifactInstallationEpoch.get_of_next next

/-- A call that commits moves every artifact by one transition; an insertion is the install move. -/
theorem Lifecycle.transition_of_ok (lifecycle : Lifecycle store) {call : StoreCall} {reply : StoreReply}
    (done : store.transact call = .ok (reply, following)) (artifactId : ArtifactId) :
    ∃ before after, store.artifactRemovalState artifactId = .ok before ∧
      following.artifactRemovalState artifactId = .ok after ∧ Transition artifactId call before after := by
  obtain ⟨installation, removal, loaded⟩ := lifecycle.artifacts artifactId
  have before := artifactRemovalState_eq_ok.mpr loaded
  have stays : following.artifactRemovalState artifactId = store.artifactRemovalState artifactId →
      ∃ before after, store.artifactRemovalState artifactId = .ok before ∧
        following.artifactRemovalState artifactId = .ok after ∧ Transition artifactId call before after :=
    fun same => ⟨_, _, before, same.trans before, .stay call _⟩
  cases call with
  | putManifest manifest =>
    obtain ⟨⟨_, _⟩, committed, same⟩ := map_eq_ok.mp done
    cases same
    exact stays (lifecycle.putManifest_state committed artifactId)
  | putInstallation manifest installed =>
    obtain ⟨⟨_, _⟩, committed, same⟩ := map_eq_ok.mp done
    cases same
    rcases putInstallation_cases committed with ⟨_, rfl, _⟩ | ⟨_, _, installs⟩
    · exact stays rfl
    by_cases same : artifactId = manifest.artifactId
    · subst same
      obtain ⟨last, first, after⟩ := installs.loaded
      obtain ⟨other, again, idle, next⟩ := installs.generation
      obtain ⟨_, rfl⟩ := first.unique again
      exact ⟨_, _, artifactRemovalState_eq_ok.mpr first, artifactRemovalState_eq_ok.mpr after, .install rfl idle next⟩
    · exact stays (installs.others same)
  | putQualification qualification =>
    obtain ⟨⟨_, _⟩, committed, same⟩ := map_eq_ok.mp done
    cases same
    rcases putQualification_cases committed with rfl | ⟨_, _, _, rfl⟩ <;> exact stays rfl
  | invalidate invalidation =>
    obtain ⟨_, committed, same⟩ := map_eq_ok.mp done
    cases same
    obtain ⟨_, rfl⟩ := invalidate_cases committed
    exact stays rfl
  | activate activationId role verified qualificationId =>
    obtain ⟨⟨_, _⟩, committed, same⟩ := map_eq_ok.mp done
    cases same
    obtain ⟨_, _, _, _, _, _, _, _, _, _, rfl⟩ := activate_cases committed
    exact stays rfl
  | deactivate activationId role =>
    obtain ⟨_, committed, same⟩ := map_eq_ok.mp done
    cases same
    obtain ⟨_, rfl⟩ := deactivate_cases committed
    exact stays rfl
  | prepareArtifactRemoval selection =>
    obtain ⟨⟨_, _⟩, committed, same⟩ := map_eq_ok.mp done
    cases same
    rcases prepareArtifactRemoval_cases committed with ⟨rfl, _⟩ | ⟨_, rfl, _, last, current, _⟩
    · exact stays rfl
    by_cases same : artifactId = selection.installed.artifactId
    · subst same
      exact ⟨_, _, artifactRemovalState_eq_ok.mpr current, artifactRemovalState_eq_ok.mpr current.withPrepared, .prepare rfl⟩
    · exact stays (withPrepared_others same)
  | completeArtifactRemoval selection =>
    obtain ⟨⟨_, _⟩, committed, same⟩ := map_eq_ok.mp done
    cases same
    obtain ⟨current, phase, journaled, ⟨_, _, rfl⟩ | ⟨_, rfl, _, rfl⟩⟩ := completeArtifactRemoval_cases committed
    · exact stays rfl
    by_cases same : artifactId = selection.installed.artifactId
    · subst same
      obtain rfl := journaled.not_installed_of_prepared rfl rfl
      exact ⟨_, _, artifactRemovalState_eq_ok.mpr journaled, artifactRemovalState_eq_ok.mpr journaled.withCompleted, .complete rfl⟩
    · exact stays (withCompleted_others same)

theorem Lifecycle.transition (lifecycle : Lifecycle store) (call : StoreCall) (artifactId : ArtifactId) :
    ∃ before after, store.artifactRemovalState artifactId = .ok before ∧
      (store.after call).artifactRemovalState artifactId = .ok after ∧ Transition artifactId call before after := by
  simp only [ArtifactStateStore.after]
  split
  next reply committed done => exact lifecycle.transition_of_ok done artifactId
  · obtain ⟨_, _, loaded⟩ := lifecycle.artifacts artifactId
    exact ⟨_, _, artifactRemovalState_eq_ok.mpr loaded, artifactRemovalState_eq_ok.mpr loaded, .stay call _⟩

/-- The generation a call inserts for the artifact, when it inserts one. -/
def insertedEpoch (artifactId : ArtifactId) (store : ArtifactStateStore) : StoreCall → Option Nat
  | .putInstallation manifest installed =>
      match store.putInstallation manifest installed with
      | .ok (disposition, _) =>
          if manifest.artifactId = artifactId ∧ disposition.installed = .inserted then some disposition.installation.epoch.get
          else none
      | .error _ => none
  | _ => none

/-- The generations a sequence of calls inserts for the artifact, in order. -/
def insertedEpochs (artifactId : ArtifactId) : ArtifactStateStore → List StoreCall → List Nat
  | _, [] => []
  | store, call :: calls => (insertedEpoch artifactId store call).toList ++ insertedEpochs artifactId (store.after call) calls

/-- The move of an insertion goes up one generation, every other move stays on it. -/
theorem Lifecycle.generation_step (lifecycle : Lifecycle store) (call : StoreCall) (artifactId : ArtifactId) :
    ∃ before after, store.artifactRemovalState artifactId = .ok before ∧ (store.after call).artifactRemovalState artifactId = .ok after ∧
      (insertedEpoch artifactId store call = none ∧ generation after = generation before ∨
        insertedEpoch artifactId store call = some (generation before + 1) ∧ generation after = generation before + 1) := by
  by_cases installing : ∃ manifest installed disposition committed, call = .putInstallation manifest installed ∧
      manifest.artifactId = artifactId ∧ store.putInstallation manifest installed = .ok (disposition, committed) ∧
      disposition.installed = .inserted
  · obtain ⟨manifest, installed, disposition, committed, rfl, rfl, done, inserted⟩ := installing
    have after : store.after (.putInstallation manifest installed) = committed := by
      simp [ArtifactStateStore.after, ArtifactStateStore.transact, done, Except.map]
    rcases putInstallation_cases done with ⟨present, _⟩ | ⟨_, _, installs⟩
    · rw [inserted] at present
      cases present
    obtain ⟨last, first, second⟩ := installs.loaded
    obtain ⟨other, again, _, next⟩ := installs.generation
    obtain ⟨_, rfl⟩ := first.unique again
    rw [after]
    refine ⟨_, _, artifactRemovalState_eq_ok.mpr first, artifactRemovalState_eq_ok.mpr second, Or.inr ⟨?_, generation_of_next next⟩⟩
    simp [insertedEpoch, done, inserted, generation_of_next next]
  · obtain ⟨before, after, read, reread, transition⟩ := lifecycle.transition call artifactId
    refine ⟨before, after, read, reread, Or.inl ⟨?_, ?_⟩⟩
    · cases call with
      | putInstallation manifest installed =>
        simp only [insertedEpoch]
        split
        next disposition committed done =>
          rw [if_neg]
          rintro ⟨same, inserted⟩
          exact installing ⟨manifest, installed, disposition, committed, rfl, same, done, inserted⟩
        · rfl
      | _ => rfl
    · cases transition with
      | stay => rfl
      | @install manifest installed removal epoch same idle next =>
        -- The call committed a state in which the artifact is installed, so it inserted it.
        exfalso
        cases done : store.putInstallation manifest installed with
        | error fault =>
          simp only [ArtifactStateStore.after, ArtifactStateStore.transact, done, Except.map] at reread
          cases read.symm.trans reread
        | ok committed =>
          obtain ⟨disposition, committed⟩ := committed
          rcases putInstallation_cases done with ⟨_, rfl, _⟩ | ⟨inserted, _⟩
          · simp only [ArtifactStateStore.after, ArtifactStateStore.transact, done, Except.map] at reread
            cases read.symm.trans reread
          · exact installing ⟨manifest, installed, disposition, committed, rfl, same, done, inserted⟩
      | prepare => rfl
      | complete => rfl

theorem insertedEpochs_from (lifecycle : Lifecycle store) (calls : List StoreCall) (artifactId : ArtifactId) {state : ArtifactState}
    (read : store.artifactRemovalState artifactId = .ok state) :
    insertedEpochs artifactId store calls = List.range' (generation state + 1) (insertedEpochs artifactId store calls).length := by
  induction calls generalizing store state with
  | nil => rfl
  | cons call calls ih =>
    obtain ⟨before, after, first, second, step⟩ := lifecycle.generation_step call artifactId
    cases first.symm.trans read
    have rest := ih (lifecycle.after call) second
    rcases step with ⟨silent, kept⟩ | ⟨inserted, raised⟩
    · rw [kept] at rest
      simpa only [insertedEpochs, silent, Option.toList_none, List.nil_append] using rest
    · rw [raised] at rest
      simp only [insertedEpochs, inserted, Option.toList_some, List.singleton_append, List.length_cons, List.range'_succ]
      rw [← rest]

variable {selection : StoredArtifactInstallation}

/-- A prepare or complete call that changes anything acts on the current installation or on a prepared removal. -/
theorem stale_selection_changes_nothing {current : Option StoredArtifactInstallation}
    (read : store.artifactRemovalState selection.installed.artifactId = .ok (current, removal)) (stale : current ≠ some selection)
    (unprepared : removal ≠ some ⟨selection, .prepared⟩) :
    store.after (.prepareArtifactRemoval selection) = store ∧ store.after (.completeArtifactRemoval selection) = store := by
  have loaded := artifactRemovalState_eq_ok.mp read
  constructor
  · simp only [ArtifactStateStore.after]
    split
    next reply committed done =>
      obtain ⟨⟨_, _⟩, done, same⟩ := map_eq_ok.mp done
      cases same
      rcases prepareArtifactRemoval_cases done with ⟨same, _⟩ | ⟨_, _, _, _, found, _⟩
      · exact same
      · exact absurd (found.unique loaded).1 stale
    · rfl
  · simp only [ArtifactStateStore.after]
    split
    next reply committed done =>
      obtain ⟨⟨_, _⟩, done, same⟩ := map_eq_ok.mp done
      cases same
      obtain ⟨_, _, found, ⟨_, _, same⟩ | ⟨_, rfl, _⟩⟩ := completeArtifactRemoval_cases done
      · exact same
      · exact absurd (found.unique loaded).2 unprepared
    · rfl

/-- An installation that a prepare or complete call takes away is the one the call selected. -/
theorem removed_installation_was_selected (lifecycle : Lifecycle store) {call : StoreCall}
    (removes : call = .prepareArtifactRemoval selection ∨ call = .completeArtifactRemoval selection) {artifactId : ArtifactId}
    {current : StoredArtifactInstallation} (read : store.artifactRemovalState artifactId = .ok (some current, removal)) {after : ArtifactState}
    (reread : (store.after call).artifactRemovalState artifactId = .ok after) (gone : after.1 ≠ some current) : current = selection := by
  obtain ⟨before, state, first, second, transition⟩ := lifecycle.transition call artifactId
  cases first.symm.trans read
  cases second.symm.trans reread
  rcases removes with rfl | rfl
  · cases transition with
    | stay => exact absurd rfl gone
    | prepare => rfl
  · cases transition with
    | stay => exact absurd rfl gone

theorem Lifecycle.unbound (lifecycle : Lifecycle store)
    (loaded : Loaded store selection.installed.artifactId none removal) : store.validateNoActiveBinding selection = .ok () := by
  rw [lifecycle.validateNoActiveBinding_eq_ok]
  intro role row binding found decoded same
  obtain ⟨_, again, authorized⟩ := lifecycle.bindings role row found
  cases again.symm.trans decoded
  have installed := authorized.installed (same ▸ loaded)
  cases installed

theorem Lifecycle.prepare_again (lifecycle : Lifecycle store)
    (loaded : Loaded store selection.installed.artifactId none (some ⟨selection, .prepared⟩)) :
    store.prepareArtifactRemoval selection = .ok (.alreadyPrepared, store) := by
  simp [ArtifactStateStore.prepareArtifactRemoval, (loaded.journaled rfl).1, loaded.installed, loaded.journal, loaded.valid, lifecycle.unbound loaded,
    Except.mapError, Option.filter_some]

theorem prepare_repeats (lifecycle : Lifecycle store)
    {disposition : RemovalPreparationDisposition} (done : store.prepareArtifactRemoval selection = .ok (disposition, following)) :
    ∃ again, following.prepareArtifactRemoval selection = .ok (again, following) := by
  rcases prepareArtifactRemoval_cases done with ⟨rfl, _⟩ | ⟨_, rfl, _, removal, loaded, _⟩
  · exact ⟨disposition, done⟩
  · exact ⟨.alreadyPrepared, (lifecycle.prepareArtifactRemoval done).prepare_again loaded.withPrepared⟩

theorem complete_repeats (lifecycle : Lifecycle store)
    {disposition : RemovalCompletionDisposition} (done : store.completeArtifactRemoval selection = .ok (disposition, following)) :
    ∃ again, following.completeArtifactRemoval selection = .ok (again, following) := by
  obtain ⟨installation, phase, loaded, ⟨_, _, rfl⟩ | ⟨_, rfl, _, rfl⟩⟩ := completeArtifactRemoval_cases done
  · exact ⟨disposition, done⟩
  · obtain rfl := loaded.not_installed_of_prepared rfl rfl
    have completed := loaded.withCompleted
    refine ⟨.alreadyCompleted, ?_⟩
    simp [completeArtifactRemoval, completed.installed, completed.journal, completed.valid, require]

/-- In every trace from the empty store an artifact's insertions are numbered 1, 2, 3 and so on; a selection that is
neither installed nor prepared changes nothing; no selection takes away an installation other than itself; and a
successful prepare or complete can be repeated at once without effect. -/
theorem removal_selections_are_single_generation (calls : List StoreCall) (selection : StoredArtifactInstallation) :
    (∀ artifactId, insertedEpochs artifactId empty calls = List.range' 1 (insertedEpochs artifactId empty calls).length) ∧
    (∀ current removal, (empty.run calls).artifactRemovalState selection.installed.artifactId = .ok (current, removal) →
      current ≠ some selection → removal ≠ some ⟨selection, .prepared⟩ →
      (empty.run calls).after (.prepareArtifactRemoval selection) = empty.run calls ∧
        (empty.run calls).after (.completeArtifactRemoval selection) = empty.run calls) ∧
    (∀ call ∈ [StoreCall.prepareArtifactRemoval selection, .completeArtifactRemoval selection], ∀ artifactId current removal after,
      (empty.run calls).artifactRemovalState artifactId = .ok (some current, removal) →
      ((empty.run calls).after call).artifactRemovalState artifactId = .ok after → after.1 ≠ some current → current = selection) ∧
    (∀ disposition following, (empty.run calls).prepareArtifactRemoval selection = .ok (disposition, following) →
      ∃ again, following.prepareArtifactRemoval selection = .ok (again, following)) ∧
    ∀ disposition following, (empty.run calls).completeArtifactRemoval selection = .ok (disposition, following) →
      ∃ again, following.completeArtifactRemoval selection = .ok (again, following) := by
  have lifecycle := Lifecycle.initial.run calls
  refine ⟨?_, ?_, ?_, ?_, ?_⟩
  · intro artifactId
    have untouched : empty.artifactRemovalState artifactId = .ok (none, none) := rfl
    exact insertedEpochs_from Lifecycle.initial calls artifactId untouched
  · intro current removal read stale unprepared
    exact stale_selection_changes_nothing read stale unprepared
  · intro call member artifactId current removal after read reread gone
    exact removed_installation_was_selected lifecycle (by simpa using member) read reread gone
  · intro disposition following done
    exact prepare_repeats lifecycle done
  · intro disposition following done
    exact complete_repeats lifecycle done

end Retonr.ArtifactStateStore
