import Retonr.Proofs.ArtifactSetRecords

/-! Every store reached from the empty one by any calls on the artifact-set tables is sound: each set
is in a state the store accepts, and no two installed sets have storage keys with the same alias. A
call on a sound store leaves a sound one, and whatever it fails with, it is not a corrupt record. -/

namespace Retonr.ArtifactSetStore
open Text List Retonr.Except

variable {store following : ArtifactSetStore} {artifactSetId : ArtifactSetId}

structure Sound (store : ArtifactSetStore) : Prop where
  holds : ∀ artifactSetId, ∃ installation removal, Holds store artifactSetId installation removal
  separate : ∀ key row other twin, store.installedArtifactSets.find key = some row → store.installedArtifactSets.find other = some twin →
    storageAlias row.storageKey = storageAlias twin.storageKey → key = other

theorem Sound.initial : Sound empty where
  holds _ := ⟨none, none, nofun, rfl, rfl, nofun, nofun, nofun, nofun, fun _ => nofun⟩
  separate _ _ _ _ found := nomatch found

/-- A result of a sound store: another one, or a fault that does not blame the records. -/
abbrev Settles {α : Type} (values : α → Prop) (result : StoreResult α) : Prop := Ends (· ≠ .corruptRecord) values result

/-- The tables agree everywhere but in the rows of one set. -/
structure Elsewhere (store following : ArtifactSetStore) (artifactSetId : ArtifactSetId) : Prop where
  manifests : ∀ key, key ≠ artifactSetId.digest → following.artifactSetManifests.find key = store.artifactSetManifests.find key
  installed : ∀ key, key ≠ artifactSetId.digest → following.installedArtifactSets.find key = store.installedArtifactSets.find key
  removals : ∀ key, key ≠ artifactSetId.digest → following.artifactSetRemovals.find key = store.artifactSetRemovals.find key

/-- No other set is installed under a key with the same alias. -/
def Unclaimed (store : ArtifactSetStore) (artifactSetId : ArtifactSetId) (storageKey : Text) : Prop :=
  ∀ key row, store.installedArtifactSets.find key = some row → storageAlias row.storageKey = storageAlias storageKey → key = artifactSetId.digest

section

variable {installation : Option StoredArtifactSetInstallation} {removal : Option StoredArtifactSetRemoval}

/-- A change to the rows of one set keeps the store sound when they still hold, and their key is not taken. -/
theorem Sound.change (sound : Sound store) (elsewhere : Elsewhere store following artifactSetId)
    (holds : Holds following artifactSetId installation removal)
    (unclaimed : ∀ current ∈ installation, Unclaimed store artifactSetId current.installed.storageKey) : Sound following := by
  have mine : ∀ row, following.installedArtifactSets.find artifactSetId.digest = some row →
      Unclaimed store artifactSetId row.storageKey := by
    intro row found
    obtain ⟨current, present, rfl⟩ := Option.map_eq_some_iff.mp (holds.installed.symm.trans found)
    exact unclaimed current present
  constructor
  · intro other
    by_cases same : other.digest = artifactSetId.digest
    · obtain ⟨digest⟩ := other
      cases same
      exact ⟨installation, removal, holds⟩
    · obtain ⟨standing, journal, kept⟩ := sound.holds other
      exact ⟨standing, journal, kept.frame (elsewhere.manifests _ same) (elsewhere.installed _ same) (elsewhere.removals _ same)⟩
  · intro key row other twin found again aliased
    by_cases first : key = artifactSetId.digest <;> by_cases second : other = artifactSetId.digest
    · exact first.trans second.symm
    · subst first
      rw [elsewhere.installed other second] at again
      exact absurd (mine row found other twin again aliased.symm) second
    · subst second
      rw [elsewhere.installed key first] at found
      exact absurd (mine twin again key row found aliased) first
    · rw [elsewhere.installed key first] at found
      rw [elsewhere.installed other second] at again
      exact sound.separate key row other twin found again aliased

end

section

variable {manifest : ArtifactSetManifest} {installed : InstalledArtifactSet} {existing : Option StoredArtifactSetInstallation}
  {removal : Option StoredArtifactSetRemoval}

theorem insertManifest_new (sound : Sound store) (valid : manifest.validate = .ok ())
    (absent : store.artifactSetManifests.find manifest.artifactSetId.digest = none) :
    ∃ described, store.insertManifest manifest = .ok (.inserted, described) ∧ Sound described ∧
      Holds described manifest.artifactSetId none none ∧ described.installedArtifactSets = store.installedArtifactSets ∧
      described.artifactSetManifests.find manifest.artifactSetId.digest = some manifest := by
  obtain ⟨installation, removal, holds⟩ := sound.holds manifest.artifactSetId
  obtain ⟨rfl, rfl⟩ := holds.absent absent
  have short := ArtifactSetManifest.byteLen_canonicalJson_le valid
  let described : ArtifactSetStore :=
    { store with artifactSetManifests := store.artifactSetManifests.upsert manifest.artifactSetId.digest manifest }
  have found : described.artifactSetManifests.find manifest.artifactSetId.digest = some manifest := by simp [described]
  have elsewhere : Elsewhere store described manifest.artifactSetId :=
    ⟨fun key other => by simp [described, other], fun _ _ => rfl, fun _ _ => rfl⟩
  have held : Holds described manifest.artifactSetId none none := by
    refine ⟨?_, holds.installed, holds.journal, by rintro _ ⟨⟩, by rintro _ ⟨⟩, holds.generation⟩
    intro stored present
    cases found.symm.trans present
    exact ⟨valid, rfl⟩
  refine ⟨described, ?_, sound.change elsewhere held (by rintro _ ⟨⟩), held, rfl, found⟩
  simp [insertManifest, ArtifactStateStore.insertImmutable, short, absent, described, require]

theorem insertManifest_settles (sound : Sound store) (valid : manifest.validate = .ok ()) :
    Settles (fun result => Sound result.2) (store.insertManifest manifest) := by
  have short := ArtifactSetManifest.byteLen_canonicalJson_le valid
  cases found : store.artifactSetManifests.find manifest.artifactSetId.digest with
  | none =>
    obtain ⟨described, inserted, again, -⟩ := insertManifest_new sound valid found
    rw [inserted]
    exact .ok again
  | some stored =>
    by_cases same : stored = manifest
    · have kept : store.insertManifest manifest = .ok (.alreadyPresent, store) := by
        simp [insertManifest, ArtifactStateStore.insertImmutable, found, short, same, require]
      rw [kept]
      exact .ok sound
    · have refused : store.insertManifest manifest = .error .immutableConflict := by
        simp [insertManifest, ArtifactStateStore.insertImmutable, found, short, same, require, bind, Except.bind]
      rw [refused]
      exact .error (by rintro ⟨⟩)

theorem putArtifactSetManifest_settles (scanner : Json.Scanner) (sound : Sound store) :
    Settles (fun result => Sound result.2) (store.putArtifactSetManifest scanner manifest) := by
  refine Ends.bind (.mapError nofun) fun _ valid => ?_
  rw [ArtifactSetManifest.fromJsonBytes_canonicalJson scanner valid]
  refine Ends.bind (.mapError nofun) fun parsed read => ?_
  cases read
  refine Ends.bind (.require fun differs => absurd rfl differs) fun _ _ => ?_
  exact insertManifest_settles sound valid

theorem requireNotPending_settles (follows : Follows existing removal) :
    Settles (fun _ => ∀ last ∈ removal, last.phase = .completed) (requireNotPending existing removal) := by
  cases removal with
  | none => exact .ok nofun
  | some last =>
    have completed : last.phase ≠ .prepared → ∀ other ∈ some last, other.phase = .completed := by
      intro unprepared other present
      cases present
      cases phase : last.phase with
      | prepared => exact absurd phase unprepared
      | completed => rfl
    cases existing with
    | none =>
      rw [requireNotPending]
      exact Ends.mono (.require nofun) completed
    | some current =>
      have prepared : last.phase ≠ .prepared := fun same => nomatch follows.prepared last rfl same
      have later := ArtifactInstallationEpoch.get_of_next (follows.next current rfl last rfl)
      have accepted : requireNotPending (some current) (some last) = .ok () := by simp [requireNotPending, prepared, later, require]
      rw [accepted]
      exact .ok (completed prepared)

/-- The rows with one alias are at most one, since no two sets share one. -/
theorem Sound.aliased_cases (sound : Sound store) (storageKey : Text) :
    store.aliasedRows storageKey = [] ∧ (∀ artifactSetId, Unclaimed store artifactSetId storageKey) ∨
      ∃ key row, store.aliasedRows storageKey = [(key, row)] ∧ store.installedArtifactSets.find key = some row ∧
        Unclaimed store ⟨key⟩ storageKey := by
  have mem : ∀ key row, (key, row) ∈ store.installedArtifactSets.rows.filter
      (fun entry => storageAlias entry.2.storageKey == storageAlias storageKey) ↔
        store.installedArtifactSets.find key = some row ∧ storageAlias row.storageKey = storageAlias storageKey := by
    intro key row
    rw [mem_filter, Table.mem_rows_iff, beq_iff_eq]
  have distinct : ((store.installedArtifactSets.rows.filter
      fun entry => storageAlias entry.2.storageKey == storageAlias storageKey).map Prod.fst).Nodup :=
    store.installedArtifactSets.unique.sublist (filter_sublist.map _)
  unfold aliasedRows
  dsimp only
  generalize store.installedArtifactSets.rows.filter (fun entry => storageAlias entry.2.storageKey == storageAlias storageKey) = aliased at *
  match aliased with
  | [] =>
    refine .inl ⟨by simp, ?_⟩
    intro _ key row found same
    cases (mem key row).mpr ⟨found, same⟩
  | [(key, row)] =>
    refine .inr ⟨key, row, by simp, ((mem key row).mp mem_cons_self).1, ?_⟩
    intro other twin found same
    exact congrArg Prod.fst (mem_singleton.mp ((mem other twin).mpr ⟨found, same⟩))
  | (key, row) :: (other, twin) :: _ =>
    obtain ⟨found, same⟩ := (mem key row).mp mem_cons_self
    obtain ⟨again, alike⟩ := (mem other twin).mp (mem_cons_of_mem _ mem_cons_self)
    have equal := sound.separate key row other twin found again (same.trans alike.symm)
    simp [equal] at distinct

/-- The owner of a storage key is the one set whose key has the same alias. -/
theorem Sound.owner (sound : Sound store) (artifactSetId : ArtifactSetId) (storageKey : Text) :
    ∃ owner, store.loadArtifactSetInstallationByStorageKey storageKey = .ok owner ∧
      ((∀ other ∈ owner, other.installed.artifactSetId = artifactSetId) → Unclaimed store artifactSetId storageKey) := by
  rw [loadArtifactSetInstallationByStorageKey]
  rcases sound.aliased_cases storageKey with ⟨rows, unclaimed⟩ | ⟨key, row, rows, found, unclaimed⟩
  · rw [rows]
    exact ⟨none, rfl, fun _ => unclaimed artifactSetId⟩
  · obtain ⟨installation, removal, holds⟩ := sound.holds ⟨key⟩
    obtain ⟨owner, rfl, -⟩ := Option.map_eq_some_iff.mp (holds.installed.symm.trans found)
    obtain ⟨⟨manifest, described, against⟩, -⟩ := holds.described owner rfl
    have same := (artifactSetId_of_validateAgainst against).trans (holds.certified manifest described).identity
    refine ⟨some owner, by simp [rows, holds.loadInstallation, require], fun owned => ?_⟩
    have own : (⟨key⟩ : ArtifactSetId) = artifactSetId := same.symm.trans (owned owner rfl)
    exact own ▸ unclaimed

/-- The manifest that an installation is put with is stored afterwards, and nothing else has changed. -/
theorem ensureManifest_eq_ok (sound : Sound store) (valid : manifest.validate = .ok ())
    (holds : Holds store manifest.artifactSetId existing removal)
    (agrees : ∀ other ∈ store.artifactSetManifests.find manifest.artifactSetId.digest, other = manifest) : ∃ disposition described,
      store.ensureManifest (store.artifactSetManifests.find manifest.artifactSetId.digest) manifest = .ok (disposition, described) ∧
        Sound described ∧ Holds described manifest.artifactSetId existing removal ∧
        described.installedArtifactSets = store.installedArtifactSets ∧
        described.artifactSetManifests.find manifest.artifactSetId.digest = some manifest := by
  cases found : store.artifactSetManifests.find manifest.artifactSetId.digest with
  | some stored =>
    have same := agrees stored found
    rw [same] at found
    exact ⟨_, store, rfl, sound, holds, rfl, found⟩
  | none =>
    obtain ⟨rfl, rfl⟩ := holds.absent found
    obtain ⟨described, inserted, again, kept, same, present⟩ := insertManifest_new sound valid found
    exact ⟨_, described, inserted, again, kept, same, present⟩

theorem nextGeneration_settles (completed : ∀ last ∈ removal, last.phase = .completed) (installed : InstalledArtifactSet) :
    Settles (fun epoch => Follows (some ⟨installed, epoch⟩) removal) (nextGeneration removal) := by
  cases removal with
  | none =>
    refine .ok ⟨by rintro _ ⟨⟩, by rintro _ _ _ ⟨⟩, fun _ current present => ?_⟩
    cases present
    rfl
  | some last =>
    have done := completed last rfl
    rw [nextGeneration]
    cases following : last.selection.epoch.next with
    | error fault =>
      rw [ArtifactInstallationEpoch.next] at following
      split at following
      · cases following
      · cases following
        exact .error (by rintro ⟨⟩)
    | ok epoch =>
      refine .ok ⟨?_, ?_, by rintro ⟨⟩⟩
      · intro other present prepared
        cases present
        cases done.symm.trans prepared
      · intro current present other journaled
        cases present
        cases journaled
        exact following

theorem encodeInstallation_settles (installation : StoredArtifactSetInstallation) :
    Settles (fun record => record = installation.record ∧ installation.encode = .ok record) installation.encode := by
  unfold StoredArtifactSetInstallation.encode
  split
  · exact .error nofun
  · exact .ok ⟨rfl, rfl⟩

theorem encodeRemoval_settles (last : StoredArtifactSetRemoval) :
    Settles (fun record => record = last.record ∧ last.encode = .ok record) last.encode := by
  unfold StoredArtifactSetRemoval.encode
  split
  · exact .error nofun
  · exact .ok ⟨rfl, rfl⟩

/-- A set that is not installed is installed as the next generation, if its key is not taken. -/
theorem insertInstalledSet_settles (sound : Sound store) {installation : StoredArtifactSetInstallation}
    (holds : Holds store installation.installed.artifactSetId none removal) (follows : Follows (some installation) removal)
    (found : store.artifactSetManifests.find installation.installed.artifactSetId.digest = some manifest)
    (against : installation.installed.validateAgainst manifest = .ok ())
    (unclaimed : Unclaimed store installation.installed.artifactSetId installation.installed.storageKey) :
    Settles (fun written => Sound written ∧ Holds written installation.installed.artifactSetId (some installation) removal)
      (store.insertInstalledSet installation) := by
  refine Ends.bind (encodeInstallation_settles installation) fun record recorded => ?_
  obtain ⟨rfl, encoded⟩ := recorded
  refine Ends.bind (.require nofun) fun _ _ => ?_
  refine Ends.bind (.require nofun) fun _ _ => ?_
  have absent := holds.installed
  simp only [Table.insert, absent, Option.map_none, Option.isSome_none, Bool.false_eq_true, if_false]
  let key := installation.installed.artifactSetId.digest
  let following := { store with installedArtifactSets := store.installedArtifactSets.upsert key (installedRow installation) }
  have written : Holds following installation.installed.artifactSetId (some installation) removal := by
    refine ⟨holds.certified, by simp [following, key], holds.journal, ?_, holds.journaled, follows⟩
    intro current present
    cases present
    exact ⟨⟨manifest, found, against⟩, _, encoded⟩
  refine .ok ⟨sound.change ⟨fun _ _ => rfl, fun other unlike => by simp [unlike], fun _ _ => rfl⟩ written ?_, written⟩
  intro current present
  cases present
  exact unclaimed

theorem ensureInstallation_settles (sound : Sound store) (holds : Holds store installed.artifactSetId existing removal)
    (completed : ∀ last ∈ removal, last.phase = .completed)
    (found : store.artifactSetManifests.find installed.artifactSetId.digest = some manifest)
    (against : installed.validateAgainst manifest = .ok ()) (unclaimed : Unclaimed store installed.artifactSetId installed.storageKey) :
    Settles (fun result => Sound result.2.2 ∧ Holds result.2.2 installed.artifactSetId (some result.2.1) removal)
      (store.ensureInstallation existing removal installed) := by
  cases existing with
  | some current => exact .ok ⟨sound, holds⟩
  | none =>
    refine Ends.bind (nextGeneration_settles completed installed) fun epoch follows => ?_
    refine Ends.bind (insertInstalledSet_settles sound holds follows found against unclaimed) fun written kept => ?_
    exact .ok kept

theorem putArtifactSetInstallation_settles (sound : Sound store) :
    Settles (fun result => Sound result.2) (store.putArtifactSetInstallation manifest installed) := by
  refine Ends.bind (.mapError (by rintro _ ⟨⟩)) fun _ valid => ?_
  refine Ends.bind (.mapError (by rintro _ ⟨⟩)) fun _ against => ?_
  have same := artifactSetId_of_validateAgainst against
  obtain ⟨existing, removal, holds⟩ := sound.holds manifest.artifactSetId
  obtain ⟨owner, loaded, claims⟩ := sound.owner manifest.artifactSetId installed.storageKey
  simp only [holds.loadManifest, holds.loadInstallation, holds.loads, holds.valid, loaded, ok_bind]
  refine Ends.bind (requireNotPending_settles holds.generation) fun _ completed => ?_
  refine Ends.bind (.require (by rintro _ ⟨⟩)) fun _ agrees => ?_
  refine Ends.bind (.require (by rintro _ ⟨⟩)) fun _ owned => ?_
  obtain ⟨disposition, described, ensured, again, kept, installs, found⟩ := ensureManifest_eq_ok sound valid holds agrees.1
  have unclaimed : Unclaimed described manifest.artifactSetId installed.storageKey := by
    rw [Unclaimed, installs]
    exact claims owned
  rw [ensured, ok_bind, ← same]
  rw [← same] at kept found unclaimed
  refine Ends.bind (ensureInstallation_settles again kept completed found against unclaimed) fun result ends => ?_
  rw [ends.2.loadInstallation, ok_bind]
  refine Ends.bind (.require fun differs => absurd rfl differs) fun _ _ => ?_
  exact .ok ends.1

end

section

variable {selection : StoredArtifactSetInstallation} {installation : Option StoredArtifactSetInstallation} {removal : Option StoredArtifactSetRemoval}

/-- The store with the journal of the set replaced. -/
def withJournal (store : ArtifactSetStore) (last : StoredArtifactSetRemoval) : ArtifactSetStore :=
  { store with artifactSetRemovals := store.artifactSetRemovals.upsert last.selection.installed.artifactSetId.digest (removalRow last) }

theorem writeSetRemoval_settles (last : StoredArtifactSetRemoval) :
    Settles (fun written => written = store.withJournal last ∧ ∃ record, last.encode = .ok record) (store.writeSetRemoval last) := by
  refine Ends.bind (encodeRemoval_settles last) fun record recorded => ?_
  obtain ⟨rfl, encoded⟩ := recorded
  refine Ends.bind (.require nofun) fun _ _ => ?_
  exact .ok ⟨rfl, _, encoded⟩

theorem Holds.journals (holds : Holds store selection.installed.artifactSetId installation removal)
    (described : Describes store selection.installed.artifactSetId selection.installed) {phase : ArtifactRemovalPhase}
    {record : ArtifactSetRemovalRecord} (encoded : (⟨selection, phase⟩ : StoredArtifactSetRemoval).encode = .ok record)
    (manifests : following.artifactSetManifests = store.artifactSetManifests)
    (uninstalled : following.installedArtifactSets.find selection.installed.artifactSetId.digest = none)
    (removals : following.artifactSetRemovals = (store.withJournal ⟨selection, phase⟩).artifactSetRemovals) :
    Holds following selection.installed.artifactSetId none (some ⟨selection, phase⟩) := by
  refine ⟨manifests ▸ holds.certified, uninstalled, by simp [removals, withJournal], nofun, ?_, fun _ _ _ => rfl, nofun, nofun⟩
  intro last present
  cases present
  rw [Describes, manifests]
  exact ⟨described, record, encoded⟩

theorem deleteInstalledSet_settles (selection : StoredArtifactSetInstallation)
    (found : store.installedArtifactSets.find selection.installed.artifactSetId.digest = some (installedRow selection)) :
    Settles (fun removed => removed.artifactSetManifests = store.artifactSetManifests ∧ removed.artifactSetRemovals = store.artifactSetRemovals ∧
        removed.installedArtifactSets.find selection.installed.artifactSetId.digest = none ∧
        ∀ key, key ≠ selection.installed.artifactSetId.digest → removed.installedArtifactSets.find key = store.installedArtifactSets.find key)
      (store.deleteInstalledSet selection) := by
  refine Ends.bind (.require nofun) fun _ _ => ?_
  refine .ok ⟨rfl, rfl, ?_, ?_⟩
  · simp [Table.find_deleteWhere, found, installedRow]
  · intro key other
    have unlike : (key == selection.installed.artifactSetId.digest) = false := beq_eq_false_iff_ne.mpr other
    rw [Table.find_deleteWhere]
    cases store.installedArtifactSets.find key with
    | none => rfl
    | some row => simp [unlike]

theorem prepareArtifactSetRemoval_settles (sound : Sound store) :
    Settles (fun result => Sound result.2) (store.prepareArtifactSetRemoval selection) := by
  obtain ⟨current, removal, holds⟩ := sound.holds selection.installed.artifactSetId
  rw [prepareArtifactSetRemoval, holds.loadManifest, ok_bind]
  cases found : store.artifactSetManifests.find selection.installed.artifactSetId.digest with
  | none => exact .error nofun
  | some manifest =>
    refine Ends.bind (.mapError nofun) fun _ against => ?_
    rw [holds.loads, ok_bind]
    refine Ends.bind (.require nofun) fun _ _ => ?_
    cases removal.filter fun removal => removal.selection = selection with
    | some last => exact .ok sound
    | none =>
      refine Ends.bind (.require nofun) fun _ installed => ?_
      subst installed
      refine Ends.bind (writeSetRemoval_settles _) fun written journals => ?_
      obtain ⟨rfl, record, encoded⟩ := journals
      refine Ends.bind (deleteInstalledSet_settles selection holds.installed) fun removed deleted => ?_
      obtain ⟨manifests, removals, uninstalled, others⟩ := deleted
      have left := holds.journals ⟨manifest, found, against⟩ encoded manifests uninstalled removals
      refine .ok (sound.change ⟨fun key _ => by rw [manifests]; rfl, others, fun key other => ?_⟩ left nofun)
      simp [removals, withJournal, other]

theorem completeArtifactSetRemoval_settles (sound : Sound store) :
    Settles (fun result => Sound result.2) (store.completeArtifactSetRemoval selection) := by
  obtain ⟨current, found, holds⟩ := sound.holds selection.installed.artifactSetId
  rw [completeArtifactSetRemoval, holds.loads, ok_bind]
  refine Ends.bind (.require nofun) fun _ _ => ?_
  cases found with
  | none => exact .error nofun
  | some last =>
    refine Ends.bind (.require nofun) fun _ same => ?_
    by_cases completed : last.phase = .completed
    · rw [if_pos completed]
      exact .ok sound
    · have prepared : last.phase = .prepared := by
        cases phase : last.phase with
        | prepared => rfl
        | completed => exact absurd phase completed
      cases holds.generation.prepared last rfl prepared
      rw [if_neg completed]
      refine Ends.bind (.require fun differs => absurd rfl differs) fun _ _ => ?_
      refine Ends.bind (writeSetRemoval_settles _) fun written journals => ?_
      obtain ⟨rfl, record, encoded⟩ := journals
      have described := (holds.journaled last rfl).1
      rw [same] at described
      have left : Holds (store.withJournal ⟨selection, .completed⟩) selection.installed.artifactSetId none (some ⟨selection, .completed⟩) :=
        holds.journals described encoded rfl holds.installed rfl
      refine .ok (sound.change ⟨fun _ _ => rfl, fun _ _ => rfl, fun key other => ?_⟩ left nofun)
      simp [withJournal, other]

end

/-- A call on a sound store leaves a sound store, and does not find a corrupt record. -/
theorem transact_settles (scanner : Json.Scanner) (sound : Sound store) (call : SetStoreCall) :
    Settles (fun result => Sound result.2) (store.transact scanner call) := by
  cases call with
  | putArtifactSetManifest manifest => exact (putArtifactSetManifest_settles scanner sound).map fun _ kept => kept
  | putArtifactSetInstallation manifest installed => exact (putArtifactSetInstallation_settles sound).map fun _ kept => kept
  | prepareArtifactSetRemoval selection => exact (prepareArtifactSetRemoval_settles sound).map fun _ kept => kept
  | completeArtifactSetRemoval selection => exact (completeArtifactSetRemoval_settles sound).map fun _ kept => kept

theorem Sound.after (scanner : Json.Scanner) (sound : Sound store) (call : SetStoreCall) : Sound (store.after scanner call) := by
  have settles := transact_settles scanner sound call
  unfold ArtifactSetStore.after
  split
  next committed done =>
    rw [done] at settles
    cases settles with
    | ok kept => exact kept
  next => exact sound

theorem Sound.run (scanner : Json.Scanner) (sound : Sound store) (calls : List SetStoreCall) : Sound (store.run scanner calls) := by
  induction calls generalizing store with
  | nil => exact sound
  | cons call calls ih => exact ih (sound.after scanner call)

/-- The selection of a journal whose removal is prepared. -/
def pendingOf (last : StoredArtifactSetRemoval) : Option StoredArtifactSetInstallation :=
  if last.phase = .prepared then some last.selection else none

variable {last : StoredArtifactSetRemoval}

theorem Holds.inspects {installation : Option StoredArtifactSetInstallation} (holds : Holds store artifactSetId installation (some last)) :
    store.inspectRemoval artifactSetId (removalRow last) = .ok (pendingOf last) := by
  obtain ⟨⟨manifest, found, against⟩, record, encoded⟩ := holds.journaled last rfl
  have decoded := decodeSetRemovalRecord_removalRow against (holds.certified manifest found).identity encoded
  have valid := holds.valid
  rw [found] at valid
  by_cases prepared : last.phase = .prepared
  · cases holds.generation.prepared last rfl prepared
    simp [inspectRemoval, holds.loadManifest, holds.loads, found, decoded, valid, pendingOf, prepared, require]
  · simp [inspectRemoval, holds.loadManifest, holds.loads, found, decoded, valid, pendingOf, prepared, require]

variable {selection : StoredArtifactSetInstallation}

theorem mem_pendingOf : selection ∈ (pendingOf last).toList ↔ last = ⟨selection, .prepared⟩ := by
  obtain ⟨chosen, phase⟩ := last
  cases phase with
  | prepared => simp [pendingOf, eq_comm]
  | completed => simp [pendingOf]

theorem Sound.journal (sound : Sound store) {key : Digest} {row : SetRemovalRow} (found : store.artifactSetRemovals.find key = some row) :
    ∃ installation last, row = removalRow last ∧ Holds store ⟨key⟩ installation (some last) := by
  obtain ⟨installation, removal, holds⟩ := sound.holds ⟨key⟩
  obtain ⟨last, rfl, same⟩ := Option.map_eq_some_iff.mp (holds.journal.symm.trans found)
  exact ⟨installation, last, same.symm, holds⟩

/-- The set has a prepared removal of that generation. -/
def Pending (store : ArtifactSetStore) (artifactSetId : ArtifactSetId) (selection : StoredArtifactSetInstallation) : Prop :=
  ∃ installation, store.loadSetRemovalState artifactSetId = .ok (installation, some ⟨selection, .prepared⟩)

theorem Holds.pending_iff {installation : Option StoredArtifactSetInstallation} (holds : Holds store artifactSetId installation (some last)) :
    Pending store artifactSetId selection ↔ selection ∈ (pendingOf last).toList := by
  rw [Pending, holds.loads, mem_pendingOf]
  constructor
  · rintro ⟨_, same⟩
    cases same
    rfl
  · rintro rfl
    exact ⟨installation, rfl⟩

/-- The loop over the journals collects the prepared ones, unless there are more than it may look at. -/
theorem Sound.inspectRemovals (sound : Sound store) (maximumEntries : Nat) {inspected : Nat} {rows : List (Digest × SetRemovalRow)}
    (stored : ∀ entry ∈ rows, store.artifactSetRemovals.find entry.1 = some entry.2) :
    (∃ pending, store.inspectRemovals maximumEntries inspected rows = .ok pending ∧
        ∀ selection, selection ∈ pending ↔ ∃ entry ∈ rows, Pending store ⟨entry.1⟩ selection) ∨
      store.inspectRemovals maximumEntries inspected rows = .error .inventoryLimitExceeded ∧ maximumEntries < inspected + rows.length := by
  induction rows generalizing inspected with
  | nil => exact .inl ⟨[], rfl, by simp⟩
  | cons entry rows ih =>
    obtain ⟨key, row⟩ := entry
    obtain ⟨here, others⟩ := forall_mem_cons.mp stored
    obtain ⟨installation, last, rfl, holds⟩ := sound.journal here
    by_cases full : inspected = maximumEntries
    · refine .inr ⟨by simp [ArtifactSetStore.inspectRemovals, full, require, bind, Except.bind], ?_⟩
      rw [full, length_cons]
      omega
    · have step : store.inspectRemovals maximumEntries inspected ((key, removalRow last) :: rows) = (do
          let rest ← store.inspectRemovals maximumEntries (inspected + 1) rows
          .ok ((pendingOf last).toList ++ rest)) := by
        simp [ArtifactSetStore.inspectRemovals, full, holds.inspects, require]
      rcases @ih (inspected + 1) others with ⟨pending, read, members⟩ | ⟨failed, many⟩
      · refine .inl ⟨(pendingOf last).toList ++ pending, by rw [step, read, ok_bind], ?_⟩
        intro selection
        rw [mem_append, members, ← holds.pending_iff]
        simp
      · refine .inr ⟨by simp [step, failed, bind, Except.bind], ?_⟩
        rw [length_cons]
        omega

theorem Sound.exists_row (sound : Sound store) (pending : Pending store artifactSetId selection) :
    ∃ row, store.artifactSetRemovals.find artifactSetId.digest = some row := by
  obtain ⟨installation, removal, holds⟩ := sound.holds artifactSetId
  obtain ⟨_, loaded⟩ := pending
  cases holds.loads.symm.trans loaded
  exact ⟨_, holds.journal⟩

/-- The listing of prepared removals does not find a corrupt record, and with a limit that is large enough it lists them all. -/
theorem Sound.lists (sound : Sound store) (maximumEntries : Nat) : store.pendingArtifactSetRemovals maximumEntries ≠ .error .corruptRecord ∧
      (maximumEntries ≠ 0 → maximumEntries + 1 ≤ i64Max → store.artifactSetRemovals.rows.length ≤ maximumEntries →
        ∃ pending, store.pendingArtifactSetRemovals maximumEntries = .ok pending ∧
          ∀ selection, selection ∈ pending ↔ ∃ artifactSetId, Pending store artifactSetId selection) := by
  by_cases limited : maximumEntries ≠ 0 ∧ maximumEntries + 1 ≤ i64Max
  swap
  · have refused : store.pendingArtifactSetRemovals maximumEntries = .error .invalidLimit := by
      rw [pendingArtifactSetRemovals, require, if_neg limited]
      rfl
    rw [refused]
    exact ⟨by rintro ⟨⟩, fun positive bounded => absurd ⟨positive, bounded⟩ limited⟩
  have listed : store.pendingArtifactSetRemovals maximumEntries = store.inspectRemovals maximumEntries 0
      ((store.artifactSetRemovals.rows.mergeSort fun left right => decide (left.1.asStr ≤ right.1.asStr)).take (maximumEntries + 1)) := by
    rw [pendingArtifactSetRemovals, require, if_pos limited, ok_bind]
  have known : ∀ entry, entry ∈ store.artifactSetRemovals.rows.mergeSort (fun left right => decide (left.1.asStr ≤ right.1.asStr)) ↔
      store.artifactSetRemovals.find entry.1 = some entry.2 := by
    intro entry
    rw [mem_mergeSort, ← Table.mem_rows_iff]
  have length : (store.artifactSetRemovals.rows.mergeSort fun left right => decide (left.1.asStr ≤ right.1.asStr)).length =
      store.artifactSetRemovals.rows.length := length_mergeSort _
  rw [listed]
  generalize store.artifactSetRemovals.rows.mergeSort (fun left right => decide (left.1.asStr ≤ right.1.asStr)) = rows at known length ⊢
  have stored : ∀ entry ∈ rows.take (maximumEntries + 1), store.artifactSetRemovals.find entry.1 = some entry.2 :=
    fun entry member => (known entry).mp (mem_of_mem_take member)
  rcases sound.inspectRemovals maximumEntries stored with ⟨pending, read, members⟩ | ⟨failed, many⟩
  · rw [read]
    refine ⟨by rintro ⟨⟩, fun _ _ enough => ⟨pending, rfl, fun selection => ?_⟩⟩
    rw [members, take_of_length_le (by omega)]
    constructor
    · rintro ⟨entry, -, prepared⟩
      exact ⟨_, prepared⟩
    · rintro ⟨artifactSetId, prepared⟩
      obtain ⟨row, found⟩ := sound.exists_row prepared
      exact ⟨(artifactSetId.digest, row), (known _).mpr found, prepared⟩
  · rw [failed]
    refine ⟨by rintro ⟨⟩, fun _ _ enough => ?_⟩
    rw [length_take] at many
    omega

/-- What the callers of a store rely on. -/
structure Consistent (scanner : Json.Scanner) (store : ArtifactSetStore) : Prop where
  /-- No two installed sets have storage keys that a file system may take for one name. -/
  apart : ∀ key row other twin, store.installedArtifactSets.find key = some row → store.installedArtifactSets.find other = some twin →
    storageAlias row.storageKey = storageAlias twin.storageKey → key = other
  /-- A prepared removal excludes an installation, whose generation follows the last removed one or is the first. -/
  generations : ∀ artifactSetId, ∃ installation removal, store.loadSetRemovalState artifactSetId = .ok (installation, removal) ∧
    (∀ last ∈ removal, last.phase = .prepared → installation = none) ∧
    ∀ current ∈ installation, (∀ last ∈ removal, current.epoch.get = last.selection.epoch.get + 1) ∧ (removal = none → current.epoch.get = 1)
  /-- No call finds a corrupt record. -/
  intact : ∀ call, store.transact scanner call ≠ .error .corruptRecord
  /-- Neither does the listing of prepared removals, and with a sufficient limit it lists them all. -/
  listed : ∀ maximumEntries, store.pendingArtifactSetRemovals maximumEntries ≠ .error .corruptRecord ∧
    (maximumEntries ≠ 0 → maximumEntries + 1 ≤ i64Max → store.artifactSetRemovals.rows.length ≤ maximumEntries →
      ∃ pending, store.pendingArtifactSetRemovals maximumEntries = .ok pending ∧
        ∀ selection, selection ∈ pending ↔ ∃ artifactSetId, Pending store artifactSetId selection)

theorem Sound.consistent (scanner : Json.Scanner) (sound : Sound store) : Consistent scanner store := by
  refine ⟨sound.separate, ?_, ?_, sound.lists⟩
  · intro artifactSetId
    obtain ⟨installation, removal, holds⟩ := sound.holds artifactSetId
    refine ⟨installation, removal, holds.loads, holds.generation.prepared, fun current present => ⟨fun last journaled => ?_, fun none => ?_⟩⟩
    · exact ArtifactInstallationEpoch.get_of_next (holds.generation.next current present last journaled)
    · rw [holds.generation.first none current present]
      rfl
  · intro call corrupt
    have settles := transact_settles scanner sound call
    rw [corrupt] at settles
    cases settles with
    | error blamed => exact blamed rfl

/-- No manifest is lost or changed on the way from one store to the other. -/
def Retains (store following : ArtifactSetStore) : Prop :=
  ∀ key manifest, store.artifactSetManifests.find key = some manifest → following.artifactSetManifests.find key = some manifest

theorem insertManifest_retains {manifest : ArtifactSetManifest} {result : WriteDisposition × ArtifactSetStore}
    (done : store.insertManifest manifest = .ok result) : store.Retains result.2 := by
  intro key stored found
  simp only [insertManifest, ArtifactStateStore.insertImmutable, bind_eq_ok, require_eq_ok, exists_unit, Except.ok.injEq] at done
  obtain ⟨-, _, inserted, rfl⟩ := done
  split at inserted
  next absent =>
    cases inserted
    rw [Table.find_upsert, if_neg (by rintro rfl; cases absent.symm.trans found), found]
  next =>
    split at inserted <;> cases inserted
    exact found

theorem transact_retains {scanner : Json.Scanner} {call : SetStoreCall} {result : SetStoreReply × ArtifactSetStore}
    (done : store.transact scanner call = .ok result) : store.Retains result.2 := by
  cases call with
  | putArtifactSetManifest manifest =>
    simp only [transact, putArtifactSetManifest, map_eq_ok, bind_eq_ok, exists_unit] at done
    obtain ⟨_, ⟨-, _, -, -, inserted⟩, rfl⟩ := done
    exact insertManifest_retains inserted
  | putArtifactSetInstallation manifest installed =>
    simp only [transact, putArtifactSetInstallation, map_eq_ok, bind_eq_ok, exists_unit, Except.ok.injEq] at done
    obtain ⟨_, ⟨-, -, present, -, existing, -, _, -, -, -, _, -, -, -, described, ensured, _, installs, _, -, -, rfl⟩, rfl⟩ := done
    have kept : store.Retains described.2 := by
      cases present with
      | some _ =>
        cases ensured
        exact fun _ _ => id
      | none => exact insertManifest_retains ensured
    cases existing with
    | some _ =>
      cases installs
      exact kept
    | none =>
      simp only [ensureInstallation, insertInstalledSet, bind_eq_ok, exists_unit, Except.ok.injEq] at installs
      obtain ⟨_, -, _, ⟨_, -, -, -, inserted⟩, rfl⟩ := installs
      split at inserted <;> cases inserted
      exact kept
  | prepareArtifactSetRemoval selection =>
    simp only [transact, prepareArtifactSetRemoval, map_eq_ok, bind_eq_ok] at done
    obtain ⟨_, ⟨_, -, answered⟩, rfl⟩ := done
    split at answered
    · cases answered
    simp only [bind_eq_ok, exists_unit] at answered
    obtain ⟨-, _, -, -, answered⟩ := answered
    split at answered
    · cases answered
      exact fun _ _ => id
    · simp only [writeSetRemoval, deleteInstalledSet, bind_eq_ok, exists_unit, Except.ok.injEq] at answered
      obtain ⟨-, _, ⟨_, -, -, rfl⟩, _, ⟨-, rfl⟩, rfl⟩ := answered
      exact fun _ _ => id
  | completeArtifactSetRemoval selection =>
    simp only [transact, completeArtifactSetRemoval, map_eq_ok, bind_eq_ok, exists_unit] at done
    obtain ⟨_, ⟨_, -, -, answered⟩, rfl⟩ := done
    split at answered
    · cases answered
    simp only [bind_eq_ok, exists_unit] at answered
    obtain ⟨-, answered⟩ := answered
    split at answered
    · cases answered
      exact fun _ _ => id
    · simp only [writeSetRemoval, bind_eq_ok, exists_unit, Except.ok.injEq] at answered
      obtain ⟨-, _, ⟨_, -, -, rfl⟩, rfl⟩ := answered
      exact fun _ _ => id

theorem run_retains (scanner : Json.Scanner) (calls : List SetStoreCall) : store.Retains (store.run scanner calls) := by
  induction calls generalizing store with
  | nil => exact fun _ _ => id
  | cons call calls ih =>
    intro key manifest found
    refine ih key manifest ?_
    unfold ArtifactSetStore.after
    split
    next done => exact transact_retains done key manifest found
    next => exact found

/-- The manifests that a run has stored are read back as they are, and no further run loses or changes one. -/
theorem stored_manifests_are_permanent (scanner : Json.Scanner) (calls later : List SetStoreCall) (artifactSetId : ArtifactSetId) :
    let store := empty.run scanner calls
    store.artifactSetManifest artifactSetId = .ok (store.artifactSetManifests.find artifactSetId.digest) ∧
      store.Retains (store.run scanner later) := by
  intro store
  refine ⟨?_, run_retains scanner later⟩
  obtain ⟨installation, removal, holds⟩ := (Sound.initial.run scanner calls).holds artifactSetId
  rw [artifactSetManifest]
  split
  next absent => rw [absent]
  next manifest found =>
    have certified := holds.certified manifest found
    have short := ArtifactSetManifest.byteLen_canonicalJson_le certified.valid
    rw [require, if_pos short, ok_bind, certified.decoded, found]
    rfl

end Retonr.ArtifactSetStore
