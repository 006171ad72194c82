import Retonr.App.ArtifactReconciliation
import Retonr.App.ArtifactRemoval

/-! What the checked reads of managed storage establish, and the only reasons for which they refuse. -/

namespace Retonr
open Text Crash List Program

variable {contract : Contract ManagedState} {state : ManagedState} {directory : PinnedDirectory} {name : Text} {maximumEntries : Nat}
  {cancellation : CancellationSource}

namespace ArtifactStorage

/-- What opening a name without following a link finds. -/
def Opens (storage : ArtifactStorage) (directory : PinnedDirectory) (name : Text) : Option MetadataFingerprint → Prop
  | none => (storage.directory directory).find name = none
  | some found => (storage.directory directory).find name = some (.regular found.inode) ∧ found = storage.fingerprint found.inode

/-- The name is taken by something that is no regular file. -/
def Obstructed (storage : ArtifactStorage) (directory : PinnedDirectory) (name : Text) : Prop :=
  ∃ entry, (storage.directory directory).find name = some entry ∧ ∀ inode, entry ≠ .regular inode

theorem Opens.unique {storage : ArtifactStorage} {first second : Option MetadataFingerprint} (opens : storage.Opens directory name first)
    (again : storage.Opens directory name second) : first = second := by
  cases first with
  | none =>
    cases second with
    | none => rfl
    | some found => cases (show none = _ from opens.symm.trans again.1)
  | some found =>
    cases second with
    | none => cases (show _ = none from opens.1.symm.trans again)
    | some other =>
      have same : found.inode = other.inode := by simpa using opens.1.symm.trans again.1
      rw [opens.2, again.2, same]

/-- The final file of a digest, with one link and exactly the expected bytes. -/
structure Verified (storage : ArtifactStorage) (name : Text) (byteSize : Nat) (digest : Digest) (file : MetadataFingerprint) : Prop where
  opens : storage.Opens .artifacts name (some file)
  single : file.hasSingleLink = true
  length : (storage.contents file.inode).length = byteSize
  digest : Digest.sha256 (storage.contents file.inode) = digest

end ArtifactStorage

/-- Why a scan of the directory may refuse: a call failed, the caller cancelled, or there is no room left. -/
def Crowded (contract : Contract ManagedState) (state : ManagedState) (directory : PinnedDirectory) (maximumEntries : Nat)
    (cancellation : CancellationSource) : Prop :=
  contract.Faulty ∨ cancellation = .caller ∨ maximumEntries ≤ (state.storage.directory directory).rows.length

section Any

variable {σ : Type} {contract : Contract σ} {state : σ}

theorem ensureNotCancelled_observes {ε : Type} {fault : ε} {facts : Except ε Unit → Prop} (holds : facts (.ok ()))
    (fails : cancellation = .caller → facts (.error fault)) : (ensureNotCancelled cancellation fault).Observes contract state facts := by
  cases cancellation with
  | never => exact observes_pure holds
  | caller =>
    apply observes_bind
    apply observes_poll
    intro signal
    exact observes_require (fun _ => holds) fun _ => fails rfl

theorem ensureNotCancelled_readOnly {ε : Type} {fault : ε} : (ensureNotCancelled cancellation fault : Program σ ε Unit).ReadOnly :=
  fun _ _ => ensureNotCancelled_observes trivial fun _ => trivial

theorem validateLayout_readOnly : (validateLayout : Program σ ArtifactInventoryError Unit).ReadOnly := readOnly_query

namespace PinnedDirectory

theorem touch_observes {facts : Except ArtifactInventoryError Unit → Prop} (fails : contract.Faulty → facts (.error io))
    (holds : facts (.ok ())) : touch.Observes contract state facts := observes_query fails holds

theorem scanEntries_observes {α : Type} {entries result : List α} (short : result.length ≤ maximumEntries) :
    (scanEntries maximumEntries cancellation entries result).Observes contract state fun answer =>
      match answer with
      | .ok found => found = result ++ entries ∧ found.length ≤ maximumEntries
      | .error _ => contract.Faulty ∨ cancellation = .caller ∨ maximumEntries < (result ++ entries).length := by
  induction entries generalizing result with
  | nil => exact observes_pure (by simpa using short)
  | cons entry entries ih =>
    apply observes_bind
    refine ensureNotCancelled_observes ?_ (fun caller => .inr (.inl caller))
    apply observes_bind
    refine touch_observes .inl ?_
    apply observes_bind
    refine observes_require ?_ ?_
    · intro room
      apply observes_bind
      refine touch_observes .inl ?_
      have room : (result ++ [entry]).length ≤ maximumEntries := by simp; omega
      have next := ih room
      simpa only [append_assoc, singleton_append] using next
    · intro full
      refine .inr (.inr ?_)
      simp
      omega

end PinnedDirectory

end Any

namespace PinnedDirectory

theorem rawEntries_observes : (directory.rawEntries maximumEntries cancellation).Observes contract state fun answer =>
    match answer with
    | .ok found => found = (state.storage.directory directory).rows ∧ found.length ≤ maximumEntries
    | .error _ => Crowded contract state directory maximumEntries cancellation := by
  apply observes_bind
  refine observes_query .inl ?_
  refine (scanEntries_observes (Nat.zero_le _)).mono ?_
  intro answer scanned
  cases answer with
  | ok found => exact scanned
  | error fault =>
    refine scanned.imp_right (Or.imp_right ?_)
    intro full
    exact Nat.le_of_lt full

theorem hasExactEntryName_observes : (directory.hasExactEntryName name maximumEntries cancellation).Observes contract state fun answer =>
    match answer with
    | .ok (present, full) => (present = false ↔ (state.storage.directory directory).find name = none) ∧
        (full = true → maximumEntries ≤ (state.storage.directory directory).rows.length)
    | .error _ => Crowded contract state directory maximumEntries cancellation := by
  refine rawEntries_observes.bind ?_ (fun _ crowded => crowded)
  intro found scanned
  obtain ⟨rfl, _⟩ := scanned
  refine observes_pure ⟨?_, ?_⟩
  · rw [Option.eq_none_iff_forall_ne_some]
    simp only [any_eq_false, beq_iff_eq, Prod.forall, Table.mem_rows_iff]
    constructor
    · intro absent entry present
      exact absent name entry present rfl
    · intro absent other entry present same
      subst same
      exact absent entry present
  · intro full
    exact Nat.le_of_eq (beq_iff_eq.mp full).symm

theorem inspectEntry_observes {facts : Except ArtifactInventoryError (Option DirectoryEntry) → Prop}
    (fails : contract.Faulty → facts (.error io)) (holds : facts (.ok ((state.storage.directory directory).find name))) :
    (directory.inspectEntry name).Observes contract state facts := observes_query fails holds

theorem fingerprintOf_observes {inode : Nat} {facts : Except ArtifactInventoryError MetadataFingerprint → Prop}
    (fails : contract.Faulty → facts (.error io)) (holds : facts (.ok (state.storage.fingerprint inode))) :
    (fingerprintOf inode).Observes contract state facts := observes_query fails holds

theorem openManagedFileByNameWithEntry_observes {entry : DirectoryEntry}
    (present : (state.storage.directory directory).find name = some entry) :
    (directory.openManagedFileByNameWithEntry name entry).Observes contract state fun answer =>
      match answer with
      | .ok found => state.storage.Opens directory name found
      | .error _ => contract.Faulty ∨ state.storage.Obstructed directory name := by
  cases entry with
  | indirect => exact observes_raise (.inr ⟨_, present, nofun⟩)
  | other => exact observes_raise (.inr ⟨_, present, nofun⟩)
  | regular inode =>
    apply observes_bind
    refine observes_query .inl ?_
    rw [present]
    apply observes_bind
    refine observes_query .inl ?_
    apply observes_bind
    refine fingerprintOf_observes .inl ?_
    apply observes_bind
    refine observes_require ?_ (fun differs => absurd rfl differs)
    intro _
    exact observes_pure ⟨present, rfl⟩

theorem openManagedFileByName_observes : (directory.openManagedFileByName name).Observes contract state fun answer =>
    match answer with
    | .ok found => state.storage.Opens directory name found
    | .error _ => contract.Faulty ∨ state.storage.Obstructed directory name := by
  apply observes_bind
  refine inspectEntry_observes .inl ?_
  cases present : (state.storage.directory directory).find name with
  | none => exact observes_pure present
  | some entry => exact openManagedFileByNameWithEntry_observes present

theorem openManagedFile_observes : (directory.openManagedFile name maximumEntries cancellation).Observes contract state fun answer =>
    match answer with
    | .ok found => state.storage.Opens directory name found
    | .error _ => Crowded contract state directory maximumEntries cancellation ∨ state.storage.Obstructed directory name := by
  refine hasExactEntryName_observes.bind ?_ (fun _ crowded => .inl crowded)
  intro (present, full) scanned
  obtain ⟨absent, crowded⟩ := scanned
  cases present with
  | false =>
    have missing := absent.mp rfl
    dsimp only
    rw [if_pos rfl]
    apply observes_bind
    refine observes_require ?_ (fun taken => .inl (.inr (.inr (crowded (by simpa using taken)))))
    intro _
    apply observes_bind
    refine inspectEntry_observes (fun faulty => .inl (.inl faulty)) ?_
    apply observes_bind
    refine observes_require ?_ (fun found => absurd missing found)
    intro _
    exact observes_pure missing
  | true =>
    dsimp only
    rw [if_neg (by decide)]
    apply observes_bind
    refine inspectEntry_observes (fun faulty => .inl (.inl faulty)) ?_
    cases found : (state.storage.directory directory).find name with
    | none => cases absent.mpr found
    | some entry =>
      refine (openManagedFileByNameWithEntry_observes found).mono ?_
      intro answer opened
      cases answer with
      | ok _ => exact opened
      | error _ => exact opened.imp_left .inl

theorem recheckManagedFile_observes {expected : MetadataFingerprint} :
    (directory.recheckManagedFile name expected maximumEntries cancellation).Observes contract state fun answer =>
      match answer with
      | .ok _ => state.storage.Opens directory name (some expected)
      | .error _ => Crowded contract state directory maximumEntries cancellation ∨ state.storage.Obstructed directory name ∨
          ¬ state.storage.Opens directory name (some expected) := by
  refine openManagedFile_observes.bind ?_ (fun _ refused => refused.imp_right .inl)
  intro current opens
  refine observes_require ?_ ?_
  · intro same
    exact same ▸ opens
  · intro differs
    exact .inr (.inr fun expected => differs (opens.unique expected))

theorem childFileFingerprint_observes : (directory.childFileFingerprint name).Observes contract state fun answer =>
    match answer with
    | .ok found => state.storage.Opens directory name (some found)
    | .error _ => contract.Faulty ∨ ∀ found, ¬ state.storage.Opens directory name (some found) := by
  refine observes_query .inl ?_
  cases present : (state.storage.directory directory).find name with
  | none => exact .inr fun found opens => nomatch present.symm.trans opens.1
  | some entry =>
    cases entry with
    | regular inode => exact ⟨present, rfl⟩
    | indirect => exact .inr fun found opens => nomatch present.symm.trans opens.1
    | other => exact .inr fun found opens => nomatch present.symm.trans opens.1

end PinnedDirectory

theorem validateLayout_observes {σ : Type} {contract : Contract σ} {state : σ} {facts : Except ArtifactInventoryError Unit → Prop} (fails : contract.Faulty → facts (.error PinnedDirectory.io))
    (holds : facts (.ok ())) : validateLayout.Observes contract state facts := PinnedDirectory.touch_observes fails holds

section Verification

theorem sum_readSizes (length : Nat) : (readSizes length).sum = length := by
  have whole := Nat.div_add_mod' length verifyBufferBytes
  simp only [readSizes, sum_append_nat, sum_replicate_nat]
  by_cases even : length % verifyBufferBytes = 0
  · rw [if_pos even, sum_nil, Nat.add_zero]
    omega
  · rw [if_neg even, sum_singleton]
    exact whole

theorem hashReads_observes {expectedSize observedSize : Nat} {counts : List Nat} :
    (hashReads expectedSize cancellation counts observedSize).Observes contract state fun answer =>
      match answer with
      | .ok total => total = observedSize + counts.sum
      | .error fault => fault ≠ .missing ∧ (contract.Faulty ∨ cancellation = .caller ∨ 2 ^ 64 ≤ observedSize + counts.sum ∨
          expectedSize < observedSize + counts.sum) := by
  induction counts generalizing observedSize with
  | nil =>
    apply observes_bind
    refine ensureNotCancelled_observes ?_ (fun caller => ⟨nofun, .inr (.inl caller)⟩)
    apply observes_bind
    apply observes_mapError
    refine PinnedDirectory.touch_observes (fun faulty => ⟨nofun, .inl faulty⟩) ?_
    exact observes_pure (by simp)
  | cons count counts ih =>
    apply observes_bind
    refine ensureNotCancelled_observes ?_ (fun caller => ⟨nofun, .inr (.inl caller)⟩)
    apply observes_bind
    apply observes_mapError
    refine PinnedDirectory.touch_observes (fun faulty => ⟨nofun, .inl faulty⟩) ?_
    apply observes_bind
    refine observes_require ?_ ?_
    · intro _
      apply observes_bind
      refine ensureNotCancelled_observes ?_ (fun caller => ⟨nofun, .inr (.inl caller)⟩)
      refine ih.mono ?_
      intro answer hashed
      cases answer with
      | ok total =>
        simp only [sum_cons]
        omega
      | error fault =>
        simp only [sum_cons, ← Nat.add_assoc]
        exact hashed
    · intro large
      refine ⟨nofun, .inr (.inr ?_)⟩
      simp only [sum_cons]
      omega

theorem hashExact_observes {inode expectedSize : Nat} :
    (hashExact inode expectedSize cancellation).Observes contract state fun answer =>
      match answer with
      | .ok digest => digest = Digest.sha256 (state.storage.contents inode) ∧ (state.storage.contents inode).length = expectedSize
      | .error fault => fault ≠ .missing ∧ (contract.Faulty ∨ cancellation = .caller ∨ 2 ^ 64 ≤ expectedSize ∨
          (state.storage.contents inode).length ≠ expectedSize) := by
  apply observes_bind
  refine observes_query (fun faulty => ⟨nofun, .inl faulty⟩) ?_
  refine hashReads_observes.bind ?_ ?_
  · intro total hashed
    rw [sum_readSizes, Nat.zero_add] at hashed
    subst hashed
    apply observes_bind
    refine observes_require ?_ (fun differs => ⟨nofun, .inr (.inr (.inr differs))⟩)
    intro same
    exact observes_pure ⟨rfl, same⟩
  · intro fault refused
    rw [sum_readSizes, Nat.zero_add] at refused
    refine ⟨refused.1, refused.2.imp_right (Or.imp_right ?_)⟩
    omega

/-- Why a verification refuses a file that is there. -/
def Unverified (contract : Contract ManagedState) (state : ManagedState) (name : Text) (expectation : ExactArtifactExpectation)
    (cancellation : CancellationSource) : Prop :=
  Crowded contract state .artifacts expectation.maximumEntries cancellation ∨ 2 ^ 64 ≤ expectation.byteSize ∨
    state.storage.artifacts.find name ≠ none ∧ ∀ file, ¬ state.storage.Verified name expectation.byteSize expectation.digest file

theorem unverified_of_opens {expectation : ExactArtifactExpectation} {managed : MetadataFingerprint}
    (opens : state.storage.Opens .artifacts name (some managed))
    (bad : managed.hasSingleLink = true → (state.storage.contents managed.inode).length = expectation.byteSize →
      Digest.sha256 (state.storage.contents managed.inode) ≠ expectation.digest) : Unverified contract state name expectation cancellation := by
  refine .inr (.inr ⟨?_, ?_⟩)
  · intro absent
    exact nomatch absent.symm.trans opens.1
  · intro file verified
    cases opens.unique verified.opens
    exact bad verified.single verified.length verified.digest

theorem syncIf_observes {enabled : Bool} {facts : Except ExactArtifactVerificationError Unit → Prop}
    (fails : contract.Faulty → facts (.error (.boundary PinnedDirectory.io))) (holds : facts (.ok ())) :
    (syncIf enabled).Observes contract state facts := by
  cases enabled with
  | false => exact observes_pure holds
  | true => exact observes_mapError (PinnedDirectory.touch_observes fails holds)

theorem verifyExactArtifactWith_observes {expectation : ExactArtifactExpectation} {mode : VerificationMode} :
    (verifyExactArtifactWith name expectation cancellation mode).Observes contract state fun answer =>
      match answer with
      | .ok file => state.storage.Verified name expectation.byteSize expectation.digest file
      | .error .missing => state.storage.artifacts.find name = none
      | .error _ => Unverified contract state name expectation cancellation := by
  have faulty : contract.Faulty → Unverified contract state name expectation cancellation := fun fault => .inl (.inl fault)
  apply observes_bind
  apply observes_mapError
  refine PinnedDirectory.openManagedFile_observes.mono ?_
  intro answer opened
  cases answer with
  | error fault =>
    rcases opened with crowded | ⟨entry, present, irregular⟩
    · exact .inl crowded
    · refine .inr (.inr ⟨fun absent => (nomatch absent.symm.trans present), ?_⟩)
      intro file verified
      cases present.symm.trans verified.opens.1
      exact irregular _ rfl
  | ok found =>
    cases found with
    | none => exact observes_raise opened
    | some managed =>
      have length : managed.length = (state.storage.contents managed.inode).length := congrArg MetadataFingerprint.length opened.2
      apply observes_bind
      refine observes_require ?_ ?_
      rotate_left
      · intro differs
        exact unverified_of_opens opened fun _ same => absurd (length.trans same) differs
      intro sized
      apply observes_bind
      refine observes_require ?_ (fun aliased => unverified_of_opens opened fun single => absurd single aliased)
      intro single
      -- The outcome of the hash is looked at only after the fingerprint was compared again.
      apply observes_bind
      apply observes_attempt
      refine hashExact_observes.mono ?_
      intro observed hashed
      apply observes_bind
      apply observes_mapError
      refine PinnedDirectory.fingerprintOf_observes faulty ?_
      apply observes_bind
      refine observes_require ?_ (fun changed => absurd ⟨opened.2.symm, by rw [← opened.2]; exact single⟩ changed)
      intro _
      apply observes_bind
      cases observed with
      | error fault =>
        apply observes_done
        have trouble : Unverified contract state name expectation cancellation := by
          rcases hashed.2 with failed | caller | large | differs
          · exact faulty failed
          · exact .inl (.inr (.inl caller))
          · exact .inr (.inl large)
          · exact unverified_of_opens opened fun _ same => absurd same differs
        cases fault with
        | missing => exact absurd rfl hashed.1
        | _ => exact trouble
      | ok digest =>
        apply observes_done
        apply observes_bind
        refine observes_require ?_ (fun differs => unverified_of_opens opened fun _ _ same => differs (hashed.1.trans same))
        intro same
        have verified : state.storage.Verified name expectation.byteSize expectation.digest managed :=
          ⟨opened, single, hashed.2, hashed.1.symm.trans same⟩
        apply observes_bind
        refine syncIf_observes faulty ?_
        apply observes_bind
        apply observes_mapError
        refine PinnedDirectory.recheckManagedFile_observes.mono ?_
        intro answer rechecked
        cases answer with
        | error fault =>
          rcases rechecked with crowded | ⟨entry, present, irregular⟩ | changed
          · exact .inl crowded
          · cases present.symm.trans opened.1
            exact absurd rfl (irregular _)
          · exact absurd opened changed
        | ok _ =>
          apply observes_bind
          refine syncIf_observes faulty ?_
          exact observes_pure verified

end Verification

end Retonr
