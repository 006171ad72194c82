import Retonr.ModelStore.Store

/-! What the store's own checks say about the rows they read back, and the invariant stated
with them: every artifact loads without a fault and every binding is still authorized. -/

namespace Retonr
open Retonr.Except

/-- What the activation rule has checked when it answers with a binding. -/
structure Activates (installed : InstalledArtifact) (qualification : QualificationRecord)
    (invalidations : List QualificationInvalidation) (role : ArtifactRole) (binding : ActiveArtifactBinding) : Prop where
  role : binding.role = role
  artifactId : binding.artifactId = installed.artifactId
  artifactDigest : binding.artifactDigest = installed.artifactDigest
  qualificationId : qualification.qualificationId = .ok binding.qualificationId
  standing : ∀ item ∈ invalidations, item.qualificationId ≠ binding.qualificationId
  authorizes : qualification.authorizes binding.artifactId binding.role = true

theorem activate_eq_ok {installed : InstalledArtifact} {qualification : QualificationRecord}
    {invalidations : List QualificationInvalidation} {role : ArtifactRole} {binding : ActiveArtifactBinding}
    (activated : activate installed qualification invalidations role = .ok binding) :
    Activates installed qualification invalidations role binding := by
  simp only [activate] at activated
  split at activated
  · cases activated
  · cases activated
  split at activated
  · cases activated
  split at activated
  · cases activated
  next qualificationId identified =>
    split at activated
    · cases activated
    next standing =>
      split at activated
      · cases activated
      next authorizes =>
        cases activated
        exact ⟨rfl, rfl, rfl, identified, by simpa using standing, by simpa using authorizes⟩

namespace ArtifactStateStore

variable {store following : ArtifactStateStore} {artifactId : ArtifactId}

/-- The installation repeats the identity and the size of its manifest. -/
structure Describes (manifest : ArtifactManifest) (installed : InstalledArtifact) : Prop where
  artifactId : installed.artifactId = manifest.artifactId
  artifactDigest : installed.artifactDigest = manifest.artifactDigest
  byteSize : installed.byteSize = manifest.byteSize

theorem validateExistingInstallation_eq_ok {indexedId : Digest} {manifest : Option ArtifactManifest} {installed : Option InstalledArtifact} :
    validateExistingInstallation indexedId manifest installed = .ok () ↔
      (∀ found ∈ manifest, found.validate = .ok () ∧ found.artifactId.digest = indexedId) ∧
      ∀ found ∈ installed, found.validate = .ok () ∧ found.artifactId.digest = indexedId ∧
        ∃ described ∈ manifest, Describes described found := by
  cases manifest with
  | none => cases installed <;> simp [validateExistingInstallation]
  | some manifest =>
    by_cases valid : manifest.validate = .ok () ∧ manifest.artifactId.digest = indexedId
    · cases installed with
      | none => simp [validateExistingInstallation, valid]
      | some installed =>
        by_cases good : installed.validate = .ok () ∧ installed.artifactId.digest = indexedId
        · simp only [validateExistingInstallation, valid, good, ne_eq, not_true_eq_false, if_false, Option.mem_def,
            Option.some.injEq, forall_eq', and_self, true_and, exists_eq_left']
          constructor
          · intro accepted
            split at accepted
            · cases accepted
            next agrees =>
              simp only [not_or, not_not] at agrees
              exact ⟨agrees.1, agrees.2.1, agrees.2.2⟩
          · rintro ⟨id, digest, size⟩
            simp [id, digest, size]
        · rw [not_and_or] at good
          rcases good with bad | bad <;> simp [validateExistingInstallation, valid, bad]
    · rw [not_and_or] at valid
      rcases valid with bad | bad <;> simp [validateExistingInstallation, bad]

variable {installation : Option StoredArtifactInstallation} {removal : Option StoredArtifactRemoval}

theorem validateGenerations_eq_ok : validateGenerations installation removal = .ok () ↔
      (∀ current ∈ installation, ∀ last ∈ removal, last.phase = .completed ∧ last.selection.epoch.next = .ok current.epoch) ∧
      (removal = none → ∀ current ∈ installation, current.epoch = .first) := by
  cases removal with
  | none => cases installation <;> simp [validateGenerations]
  | some removal =>
    cases installation with
    | none => simp [validateGenerations]
    | some installation =>
      cases phase : removal.phase with
      | prepared => simp [validateGenerations, phase]
      | completed =>
        have named : ∀ value : StoreResult ArtifactInstallationEpoch, (value >>= fun following =>
            if following ≠ installation.epoch then .error StoreError.corruptRecord else .ok ()) = .ok () ↔
              value = .ok installation.epoch := by
          intro value
          rw [bind_eq_ok]
          simp
        simpa [validateGenerations, phase] using named removal.selection.epoch.next

theorem validateRemovalState_eq_ok {indexedId : Digest} {manifest : Option ArtifactManifest} :
    validateRemovalState indexedId manifest installation removal = .ok () ↔
      validateExistingInstallation indexedId manifest (installation.map StoredArtifactInstallation.installed) = .ok () ∧
      (∀ last ∈ removal, validateExistingInstallation indexedId manifest (some last.selection.installed) = .ok ()) ∧
      validateGenerations installation removal = .ok () := by
  cases removal with
  | none => simp [validateRemovalState, bind_eq_ok]
  | some removal => simp [validateRemovalState, bind_eq_ok]

theorem artifactRemovalState_congr
    (manifests : following.artifactManifests.find artifactId.digest = store.artifactManifests.find artifactId.digest)
    (installed : following.installedArtifacts.find artifactId.digest = store.installedArtifacts.find artifactId.digest)
    (removals : following.artifactRemovals.find artifactId.digest = store.artifactRemovals.find artifactId.digest) :
    following.artifactRemovalState artifactId = store.artifactRemovalState artifactId := by
  simp only [artifactRemovalState, loadInstallation, loadRemoval, loadManifest, manifests, installed, removals]

/-- A state that passes the checks, with what the checks say about it. -/
structure Loaded (store : ArtifactStateStore) (artifactId : ArtifactId) (installation : Option StoredArtifactInstallation)
    (removal : Option StoredArtifactRemoval) : Prop where
  installed : store.loadInstallation artifactId = .ok installation
  journal : store.loadRemoval artifactId = .ok removal
  valid : validateRemovalState artifactId.digest (store.loadManifest artifactId) installation removal = .ok ()

theorem artifactRemovalState_eq_ok :
    store.artifactRemovalState artifactId = .ok (installation, removal) ↔ Loaded store artifactId installation removal := by
  simp only [artifactRemovalState, bind_eq_ok, exists_unit, Except.ok.injEq, Prod.mk.injEq]
  constructor
  · rintro ⟨_, first, _, second, valid, rfl, rfl⟩
    exact ⟨first, second, valid⟩
  · rintro ⟨first, second, valid⟩
    exact ⟨_, first, _, second, valid, rfl, rfl⟩

theorem loadInstallation_eq_none : store.loadInstallation artifactId = .ok none ↔ store.installedArtifacts.find artifactId.digest = none := by
  simp only [loadInstallation]
  split
  next absent => simp [absent]
  next row found =>
    have kept : (decodeInstallation artifactId row).map some ≠ .ok none := by
      intro read
      obtain ⟨_, _, impossible⟩ := map_eq_ok.mp read
      cases impossible
    simp [found, kept]

theorem loadInstallation_eq_some {selection : StoredArtifactInstallation} : store.loadInstallation artifactId = .ok (some selection) ↔
      store.installedArtifacts.find artifactId.digest = some ⟨selection.epoch.databaseValue, selection.installed⟩ ∧
      selection.installed.validate = .ok () ∧ selection.installed.artifactId = artifactId := by
  simp only [loadInstallation]
  split
  next absent => simp [absent]
  next row found =>
    rw [found, map_eq_ok]
    simp only [Option.some.injEq, exists_eq_right, decodeInstallation]
    constructor
    · intro read
      split at read
      · cases read
      next valid =>
        split at read
        · cases read
        next same =>
          obtain ⟨epoch, stored, rfl⟩ := map_eq_ok.mp read
          exact ⟨by rw [← ArtifactInstallationEpoch.eq_databaseValue stored], by simpa using valid, by simpa using same⟩
    · rintro ⟨rfl, valid, same⟩
      simp [valid, same, Except.map]

def removalRow (removal : StoredArtifactRemoval) : RemovalRow :=
  ⟨removal.selection.epoch.databaseValue, removal.phase.key,
    ⟨removalRecordSchemaVersion, removal.selection.installed, removal.selection.epoch.get, removal.phase⟩⟩

theorem loadRemoval_of_row {removal : StoredArtifactRemoval} (found : store.artifactRemovals.find artifactId.digest = some (removalRow removal))
    (valid : removal.selection.installed.validate = .ok ()) (same : removal.selection.installed.artifactId = artifactId) :
    store.loadRemoval artifactId = .ok (some removal) := by
  simp [loadRemoval, found, decodeRemoval, removalRow, valid, same, Except.map]

namespace Loaded

variable {installation : Option StoredArtifactInstallation} {removal : Option StoredArtifactRemoval}

section
variable (loaded : Loaded store artifactId installation removal)
include loaded

theorem unique {other : Option StoredArtifactInstallation}
    {journal : Option StoredArtifactRemoval} (again : Loaded store artifactId other journal) : other = installation ∧ journal = removal := by
  have first := loaded.installed.symm.trans again.installed
  have second := loaded.journal.symm.trans again.journal
  simp only [Except.ok.injEq] at first second
  exact ⟨first.symm, second.symm⟩

theorem frame (same : following.artifactRemovalState artifactId = store.artifactRemovalState artifactId) :
    Loaded following artifactId installation removal := by
  rw [← artifactRemovalState_eq_ok] at loaded ⊢
  exact same.trans loaded

theorem described {current : StoredArtifactInstallation}
    (present : current ∈ installation) : current.installed.validate = .ok () ∧ current.installed.artifactId = artifactId ∧
      ∃ manifest, store.loadManifest artifactId = some manifest ∧ Describes manifest current.installed := by
  obtain ⟨existing, _, _⟩ := validateRemovalState_eq_ok.mp loaded.valid
  obtain ⟨valid, same, described⟩ := (validateExistingInstallation_eq_ok.mp existing).2 current.installed
    (Option.mem_map_of_mem _ present)
  exact ⟨valid, ArtifactId.eq_of_digest same, described⟩

theorem journaled {last : StoredArtifactRemoval}
    (present : last ∈ removal) : last.selection.installed.validate = .ok () ∧ last.selection.installed.artifactId = artifactId ∧
      ∃ manifest, store.loadManifest artifactId = some manifest ∧ Describes manifest last.selection.installed := by
  obtain ⟨_, existing, _⟩ := validateRemovalState_eq_ok.mp loaded.valid
  obtain ⟨valid, same, described⟩ := (validateExistingInstallation_eq_ok.mp (existing last present)).2 _ rfl
  exact ⟨valid, ArtifactId.eq_of_digest same, described⟩

theorem manifest_valid {manifest : ArtifactManifest}
    (present : store.loadManifest artifactId = some manifest) : manifest.validate = .ok () ∧ manifest.artifactId = artifactId := by
  obtain ⟨existing, _, _⟩ := validateRemovalState_eq_ok.mp loaded.valid
  obtain ⟨valid, same⟩ := (validateExistingInstallation_eq_ok.mp existing).1 manifest present
  exact ⟨valid, ArtifactId.eq_of_digest same⟩

/-- An installation is the generation after the last completed removal, or the first. -/
theorem generation {current : StoredArtifactInstallation} (present : current ∈ installation) :
    (∀ last ∈ removal, last.phase = .completed ∧ last.selection.epoch.next = .ok current.epoch) ∧ (removal = none → current.epoch = .first) := by
  obtain ⟨_, _, generations⟩ := validateRemovalState_eq_ok.mp loaded.valid
  obtain ⟨follows, first⟩ := validateGenerations_eq_ok.mp generations
  exact ⟨follows current present, fun none => first none current present⟩

theorem not_installed_of_prepared {last : StoredArtifactRemoval}
    (present : last ∈ removal) (prepared : last.phase = .prepared) : installation = none := by
  cases installation with
  | none => rfl
  | some current =>
    have completed := ((loaded.generation rfl).1 last present).1
    rw [prepared] at completed
    cases completed

theorem absent (missing : store.loadManifest artifactId = none) : installation = none ∧ removal = none := by
  constructor
  · cases installation with
    | none => rfl
    | some current =>
      obtain ⟨_, _, _, found, _⟩ := loaded.described rfl
      simp [missing] at found
  · cases removal with
    | none => rfl
    | some last =>
      obtain ⟨_, _, _, found, _⟩ := loaded.journaled rfl
      simp [missing] at found

end

/-- Builds the checked state from the loads and the facts the checks look at. -/
theorem of_facts (installed : store.loadInstallation artifactId = .ok installation) (journal : store.loadRemoval artifactId = .ok removal)
    (manifest : ∀ found, store.loadManifest artifactId = some found → found.validate = .ok () ∧ found.artifactId = artifactId)
    (described : ∀ current ∈ installation, current.installed.validate = .ok () ∧ current.installed.artifactId = artifactId ∧
      ∃ found, store.loadManifest artifactId = some found ∧ Describes found current.installed)
    (journaled : ∀ last ∈ removal, last.selection.installed.validate = .ok () ∧ last.selection.installed.artifactId = artifactId ∧
      ∃ found, store.loadManifest artifactId = some found ∧ Describes found last.selection.installed)
    (generation : ∀ current ∈ installation, (∀ last ∈ removal, last.phase = .completed ∧
      last.selection.epoch.next = .ok current.epoch) ∧ (removal = none → current.epoch = .first)) :
    Loaded store artifactId installation removal := by
  have manifests : ∀ found ∈ store.loadManifest artifactId, found.validate = .ok () ∧ found.artifactId.digest = artifactId.digest := by
    intro found present
    obtain ⟨valid, same⟩ := manifest found present
    exact ⟨valid, by rw [same]⟩
  refine ⟨installed, journal, validateRemovalState_eq_ok.mpr ⟨?_, ?_, ?_⟩⟩
  · refine validateExistingInstallation_eq_ok.mpr ⟨manifests, ?_⟩
    intro found present
    obtain ⟨current, member, rfl⟩ := Option.mem_map.mp present
    obtain ⟨valid, same, describes⟩ := described current member
    exact ⟨valid, by rw [same], describes⟩
  · intro last member
    refine validateExistingInstallation_eq_ok.mpr ⟨manifests, ?_⟩
    intro found present
    cases present
    obtain ⟨valid, same, describes⟩ := journaled last member
    exact ⟨valid, by rw [same], describes⟩
  · exact validateGenerations_eq_ok.mpr ⟨fun current member => (generation current member).1,
      fun none current member => (generation current member).2 none⟩

end Loaded

/-- The installed artifact, the qualification and the absence of an invalidation that together
make the activation rule answer with exactly this binding. -/
structure Authorized (store : ArtifactStateStore) (binding : ActiveArtifactBinding) : Prop where
  evidence : ∃ installation removal qualification invalidations,
    Loaded store binding.artifactId (some installation) removal ∧
    store.loadQualification binding.qualificationId = .ok (some qualification) ∧
    store.loadInvalidations binding.qualificationId = .ok invalidations ∧
    Retonr.activate installation.installed qualification invalidations binding.role = .ok binding

variable {binding : ActiveArtifactBinding}

theorem validateBinding_eq_ok {recovered : ActiveArtifactBinding} :
    store.validateBinding binding (fun _ => true) = .ok recovered ↔ recovered = binding ∧ Authorized store binding := by
  simp only [validateBinding, bind_eq_ok, exists_unit]
  constructor
  · rintro ⟨installation, installed, removal, journal, valid, rest⟩
    cases installation with
    | none => cases rest
    | some installation =>
      simp only [bind_eq_ok, exists_unit, require_eq_ok, true_and] at rest
      obtain ⟨found, qualified, rest⟩ := rest
      cases found with
      | none => cases rest
      | some qualification =>
        simp only [bind_eq_ok, exists_unit, require_eq_ok, mapError_eq_ok, Except.ok.injEq] at rest
        obtain ⟨invalidations, invalidated, _, activated, rfl, rfl⟩ := rest
        exact ⟨rfl, ⟨installation, removal, qualification, invalidations, ⟨installed, journal, valid⟩, qualified, invalidated, activated⟩⟩
  · rintro ⟨rfl, installation, removal, qualification, invalidations, loaded, qualified, invalidated, activated⟩
    refine ⟨some installation, loaded.installed, removal, loaded.journal, loaded.valid, ?_⟩
    simp [bind_eq_ok, qualified, invalidated, activated, Except.mapError]

/-- What holds of every reachable store: each artifact, qualification and invalidation reads back
without a fault, and each active binding is still authorized. -/
structure Lifecycle (store : ArtifactStateStore) : Prop where
  artifacts : ∀ artifactId, ∃ installation removal, Loaded store artifactId installation removal
  qualifications : ∀ qualificationId, ∃ found, store.loadQualification qualificationId = .ok found
  invalidations : ∀ qualificationId, ∃ found, store.loadInvalidations qualificationId = .ok found
  bindings : ∀ role row, store.activeBindings.find role = some row →
    ∃ binding, decodeStoredBinding role row = .ok binding ∧ Authorized store binding

theorem Lifecycle.initial : Lifecycle empty := by
  refine ⟨?_, ?_, ?_, ?_⟩
  · intro artifactId
    refine ⟨none, none, .of_facts rfl rfl ?_ ?_ ?_ ?_⟩
    · intro found present
      cases present
    all_goals
      intro current member
      cases member
  · intro qualificationId
    exact ⟨none, rfl⟩
  · intro qualificationId
    exact ⟨[], rfl⟩
  · intro role row found
    cases found

/-- A binding stays authorized while its artifact, its qualification and the invalidations of it do. -/
theorem Authorized.frame (authorized : Authorized store binding)
    (artifact : following.artifactRemovalState binding.artifactId = store.artifactRemovalState binding.artifactId)
    (qualification : following.loadQualification binding.qualificationId = store.loadQualification binding.qualificationId)
    (invalidations : following.loadInvalidations binding.qualificationId = store.loadInvalidations binding.qualificationId) :
    Authorized following binding := by
  obtain ⟨installation, removal, record, items, loaded, qualified, invalidated, activated⟩ := authorized
  exact ⟨installation, removal, record, items, loaded.frame artifact, qualification.trans qualified,
    invalidations.trans invalidated, activated⟩

theorem Authorized.installed (authorized : Authorized store binding)
    (loaded : Loaded store binding.artifactId installation removal) : installation.isSome = true := by
  obtain ⟨current, _, _, _, again, _⟩ := authorized
  rw [← (loaded.unique again).1]
  rfl

section Bindings

section
variable (lifecycle : Lifecycle store)
include lifecycle

theorem Lifecycle.length_bindings_le : store.activeBindings.rows.length ≤ maxActiveBindings := by
  have known : ∀ role row, store.activeBindings.find role = some row → role ∈ ArtifactRole.all.map ArtifactRole.machineName := by
    intro role row found
    obtain ⟨binding, decoded, _⟩ := lifecycle.bindings role row found
    simp only [decodeStoredBinding] at decoded
    split at decoded
    · cases decoded
    next same =>
      simp only [not_or, not_not] at same
      exact List.mem_map.mpr ⟨binding.role, ArtifactRole.mem_all _, by cases decoded; exact same.1.symm⟩
  simpa [maxActiveBindings] using store.activeBindings.length_rows_le known

omit lifecycle in
theorem decodeBindings_total {rows : List (Text × StoredBindingRow)} {loaded : Nat}
    (decodes : ∀ entry ∈ rows, ∃ binding, decodeStoredBinding entry.1 entry.2 = .ok binding) (few : loaded + rows.length ≤ maxActiveBindings) :
    ∃ bindings, decodeBindings loaded rows = .ok bindings ∧
      ∀ binding, binding ∈ bindings ↔ ∃ entry ∈ rows, decodeStoredBinding entry.1 entry.2 = .ok binding := by
  induction rows generalizing loaded with
  | nil => exact ⟨[], rfl, by simp⟩
  | cons entry rows ih =>
    obtain ⟨role, row⟩ := entry
    obtain ⟨binding, decoded⟩ := decodes (role, row) (by simp)
    simp only [List.length_cons] at few
    have room : loaded + 1 + rows.length ≤ maxActiveBindings := by omega
    obtain ⟨rest, read, members⟩ := ih (fun entry member => decodes entry (by simp [member])) room
    have room : loaded ≠ maxActiveBindings := by omega
    refine ⟨binding :: rest, by simp [decodeBindings, room, decoded, read], ?_⟩
    intro other
    simp [members, decoded, eq_comm]

theorem Lifecycle.loads_bindings : ∃ bindings, store.loadActiveBindings = .ok bindings ∧ ∀ binding, binding ∈ bindings ↔
      ∃ role row, store.activeBindings.find role = some row ∧ decodeStoredBinding role row = .ok binding := by
  have length := lifecycle.length_bindings_le
  have whole : (store.activeBindings.rows.mergeSort fun left right => decide (left.1 ≤ right.1)).take (maxActiveBindings + 1) =
      store.activeBindings.rows.mergeSort fun left right => decide (left.1 ≤ right.1) := by
    rw [List.take_of_length_le]
    rw [List.length_mergeSort]
    omega
  have decodes : ∀ entry ∈ store.activeBindings.rows.mergeSort fun left right => decide (left.1 ≤ right.1),
      ∃ binding, decodeStoredBinding entry.1 entry.2 = .ok binding := by
    intro entry member
    rw [List.mem_mergeSort] at member
    obtain ⟨binding, decoded, _⟩ := lifecycle.bindings _ _ ((Table.mem_rows_iff ..).mp member)
    exact ⟨binding, decoded⟩
  have room : 0 + (store.activeBindings.rows.mergeSort fun left right => decide (left.1 ≤ right.1)).length ≤ maxActiveBindings := by
    rw [List.length_mergeSort]
    omega
  obtain ⟨bindings, read, members⟩ := decodeBindings_total decodes room
  refine ⟨bindings, by rw [loadActiveBindings, whole, read], ?_⟩
  intro binding
  simp only [members, List.mem_mergeSort, Prod.exists, Table.mem_rows_iff]

theorem Lifecycle.authorized {bindings : List ActiveArtifactBinding}
    (loaded : store.loadActiveBindings = .ok bindings) {binding : ActiveArtifactBinding} (member : binding ∈ bindings) :
    Authorized store binding := by
  obtain ⟨_, read, members⟩ := lifecycle.loads_bindings
  cases read.symm.trans loaded
  obtain ⟨role, row, found, decoded⟩ := (members binding).mp member
  obtain ⟨_, again, authorized⟩ := lifecycle.bindings role row found
  cases again.symm.trans decoded
  exact authorized

/-- On a sound store the check fails only when a binding names the selected artifact. -/
theorem Lifecycle.validateNoActiveBinding_eq_ok {selection : StoredArtifactInstallation} :
    store.validateNoActiveBinding selection = .ok () ↔ ∀ role row binding, store.activeBindings.find role = some row →
      decodeStoredBinding role row = .ok binding → binding.artifactId ≠ selection.installed.artifactId := by
  obtain ⟨bindings, read, members⟩ := lifecycle.loads_bindings
  simp only [validateNoActiveBinding, read, ok_bind, forM_eq_ok]
  constructor
  · intro checked role row binding found decoded
    obtain ⟨_, _, free⟩ := bind_eq_ok.mp (checked binding ((members binding).mpr ⟨role, row, found, decoded⟩))
    simpa using free
  · intro free binding member
    obtain ⟨role, row, found, decoded⟩ := (members binding).mp member
    have valid := validateBinding_eq_ok.mpr ⟨rfl, lifecycle.authorized read member⟩
    simp [valid, free role row binding found decoded]

end

end Bindings

end ArtifactStateStore

end Retonr
