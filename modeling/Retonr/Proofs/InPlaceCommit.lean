import Retonr.Cli.Replace

/-! The in-place commit can be stopped at any call and loses nothing: the source holds the
original or the accepted bytes, and the original is in the backup whenever it is not in the source. -/

namespace Retonr
open Text Crash Retonr.Except Program

namespace FileSystem

variable {fs before after : FileSystem} {path other : Path}

@[simp] theorem find_put (fs : FileSystem) (path other : Path) (node : Node) :
    (fs.put path node).find other = if other = path then some node else fs.find other := by
  simp [find, put]

@[simp] theorem find_remove (fs : FileSystem) (path other : Path) :
    (fs.remove path).find other = if other = path then none else fs.find other := by
  simp only [find, remove, Table.find_deleteWhere]
  by_cases same : other = path
  · simp [same]
  · cases found : fs.entries.find other <;> simp [same]

@[simp] theorem find_create (fs : FileSystem) (path other : Path) (mode : Nat) : (fs.create path mode).find other =
      if other = path then some (.file ⟨[], fs.nextInode, 1, fs.user, fs.group, mode, fs.inheritsAttributes⟩) else fs.find other :=
  find_put ..

/-- The path holds a regular file with exactly these bytes. -/
def Holds (fs : FileSystem) (path : Path) (bytes : Bytes) : Prop :=
  ∃ file, fs.find path = some (.file file) ∧ file.content = bytes

/-- The two file systems differ at most in this entry. -/
def SameExcept (path : Path) (before after : FileSystem) : Prop := ∀ other, other ≠ path → after.find other = before.find other

theorem SameExcept.refl : SameExcept path fs fs := fun _ _ => rfl

theorem SameExcept.trans {last : FileSystem} (first : SameExcept path before after) (second : SameExcept path after last) :
    SameExcept path before last := fun other different => (second other different).trans (first other different)

theorem SameExcept.holds {bytes : Bytes} (same : SameExcept path before after) (different : other ≠ path)
    (holds : before.Holds other bytes) : after.Holds other bytes := by
  obtain ⟨file, found, content⟩ := holds
  exact ⟨file, (same other different).trans found, content⟩

theorem sameExcept_modify (fs : FileSystem) (path : Path) (change : RegularFile → RegularFile) : SameExcept path fs (fs.modify path change) := by
  intro other different
  simp only [modify]
  split
  · simp [different]
  · rfl

theorem Holds.modify {bytes : Bytes} (holds : fs.Holds path bytes) (change : RegularFile → RegularFile) :
    ∃ file, fs.find path = some (.file file) ∧ file.content = bytes ∧ (fs.modify path change).find path = some (.file (change file)) := by
  obtain ⟨file, found, content⟩ := holds
  exact ⟨file, found, content, by simp [FileSystem.modify, found]⟩

end FileSystem

namespace Replace

open FileSystem

variable {source backup staging path : Path} {original accepted bytes : Bytes} {command : CommandName}

theorem sibling_eq_ok {suffix : Text} (found : sibling source suffix command = .ok path) :
    ∃ name, source.fileName = some (encode name) ∧ path = ⟨source.parent, some (encode (name ++ suffix))⟩ := by
  simp only [sibling] at found
  split at found
  · cases found
  next name decoded =>
    split at found
    · cases found
    cases found
    obtain ⟨raw, named, text⟩ := Option.bind_eq_some_iff.mp decoded
    refine ⟨name, ?_, rfl⟩
    cases same : decode raw with
    | error offset => simp [same, Except.toOption] at text
    | ok read =>
      simp only [same, Except.toOption, Option.some.injEq] at text
      rw [named, ← text, encode_of_decode same]

theorem sibling_ne_source {suffix : Text} (found : sibling source suffix command = .ok path) (nonempty : suffix ≠ []) : source ≠ path := by
  intro same
  obtain ⟨name, named, rfl⟩ := sibling_eq_ok found
  rw [same] at named
  have text := encode_injective (Option.some.inj named)
  exact nonempty (by simpa using text)

theorem siblings_ne (first : sibling source backupSuffix command = .ok backup)
    (second : sibling source stagingSuffix command = .ok staging) : backup ≠ staging := by
  intro same
  obtain ⟨name, named, rfl⟩ := sibling_eq_ok first
  obtain ⟨again, renamed, rfl⟩ := sibling_eq_ok second
  obtain rfl := encode_injective (Option.some.inj (named.symm.trans renamed))
  simp only [Path.mk.injEq, true_and] at same
  have text := encode_injective (Option.some.inj same)
  rw [List.append_cancel_left_eq] at text
  exact absurd text (by decide)

section Observers

variable {contract : Contract FileSystem} {fs : FileSystem}

theorem readDirect_observes {limit : Nat} :
    (readDirectUnaliasedBounded path limit).Observes contract fs fun answer => ∀ bytes, answer = .ok bytes → fs.Holds path bytes := by
  refine observes_query (fun _ _ refused => nomatch refused) ?_
  intro bytes read
  simp only [bind_eq_ok, exists_unit, require_eq_ok] at read
  obtain ⟨_, found⟩ := read
  split at found
  · cases found
  · cases found
  · cases found
  next file present =>
    simp only [bind_eq_ok, exists_unit, require_eq_ok] at found
    obtain ⟨_, _, same⟩ := found
    exact ⟨file, present, Except.ok.inj same⟩

theorem expectBytes_observes {limit : Nat} {expected : Bytes} {fault : RunFailure} :
    (do let current ← (readDirectUnaliasedBounded path limit).mapError fun _ => fault
        Program.require (current = expected) fault : FileCall Unit).Observes contract fs fun answer =>
      answer = .ok () → fs.Holds path expected := by
  have read : ((readDirectUnaliasedBounded path limit).mapError fun _ => fault).Observes contract fs fun answer =>
      ∀ bytes, answer = .ok bytes → fs.Holds path bytes := by
    apply observes_mapError
    refine readDirect_observes.mono ?_
    intro result found bytes same
    exact found bytes (mapError_eq_ok.mp same)
  refine read.bind ?_ ?_
  · intro current found
    refine observes_require ?_ (fun _ refused => nomatch refused)
    intro same _
    exact same ▸ found current rfl
  · intro _ _ refused
    cases refused

theorem requireOriginalBytes_observes :
    (requireOriginalBytes source original command).Observes contract fs fun answer => answer = .ok () → fs.Holds source original :=
  expectBytes_observes

theorem requireAcceptedBytes_observes :
    (requireAcceptedBytes path accepted command).Observes contract fs fun answer => answer = .ok () → fs.Holds path accepted :=
  expectBytes_observes

theorem requireUnoccupiedPath_observes :
    (requireUnoccupiedPath path command).Observes contract fs fun answer => answer = .ok () → fs.find path = none := by
  refine observes_query (fun _ refused => nomatch refused) ?_
  simp

theorem requireRegularFile_readOnly : (requireRegularFile path command).ReadOnly := readOnly_query

theorem noExtendedAttributes_readOnly : (noExtendedAttributes path command).ReadOnly := readOnly_query

variable {protection : Protection}

theorem verifyFile_readOnly : (protection.verifyFile path command).ReadOnly := by
  refine readOnly_query.bind fun _ => ?_
  refine noExtendedAttributes_readOnly.bind fun _ => ?_
  exact readOnly_require

theorem capture_readOnly : (Protection.capture source command).ReadOnly := by
  refine readOnly_query.bind fun _ => ?_
  refine readOnly_query.bind fun found => ?_
  refine noExtendedAttributes_readOnly.bind fun _ => ?_
  cases found with
  | none => exact readOnly_done
  | some file => exact readOnly_require.bind fun _ => readOnly_done

theorem verifyPath_readOnly : (protection.verifyPath path command).ReadOnly :=
  readOnly_query.bind fun _ => verifyFile_readOnly

theorem verifySource_readOnly : (protection.verifySource path command).ReadOnly := by
  refine readOnly_query.bind fun _ => ?_
  refine readOnly_query.bind fun _ => ?_
  refine readOnly_require.bind fun _ => ?_
  exact verifyFile_readOnly

end Observers

variable {invariant : FileSystem → Prop} {start state : FileSystem} {post : Except RunFailure Unit → FileSystem → Prop}

/-- Altering the file at the path, whole or in part, keeps the rest of the file system. -/
theorem meets_alter {fault : RunFailure} {torn : Nat → FileSystem → FileSystem} {alter : RegularFile → RegularFile}
    (stable : ∀ after, SameExcept path start after → invariant after) (same : SameExcept path start state)
    (cut : ∀ reach, SameExcept path state (torn reach state))
    (holds : SameExcept path start (state.modify path alter) → post (.ok ()) (state.modify path alter))
    (fails : ∀ fault after, post (.error fault) after) :
    (Program.call fault torn fun fs => .ok ((), fs.modify path alter)).Meets (.keeping invariant) state post := by
  have changed := same.trans (sameExcept_modify state path alter)
  refine meets_call ?_ (fun _ _ => fails _ _) ?_ (fun _ refused => nomatch refused)
  · intro reach _
    exact ⟨stable _ (same.trans (cut reach)), trivial⟩
  · intro _ next done
    cases done
    exact ⟨stable _ changed, trivial, holds changed⟩

/-- Writing a fresh file touches its own path only, and leaves the bytes there when it succeeds. -/
theorem meets_write (protection : Protection) (stable : ∀ after, SameExcept path state after → invariant after)
    (absent : state.find path = none) (holds : ∀ after, SameExcept path state after → after.Holds path bytes → post (.ok ()) after)
    (fails : ∀ fault after, post (.error fault) after) : (protection.write path bytes command).Meets (.keeping invariant) state post := by
  apply meets_bind
  refine meets_atomic (stable state .refl) trivial (fun _ => fails _ _) ?_ (fun _ _ => fails _ _)
  intro _ created done
  rw [absent] at done
  cases done
  have fresh : SameExcept path state (state.create path 0o600) := by
    intro other different
    simp [different]
  have empty : (state.create path 0o600).Holds path [] := ⟨_, by simp; rfl, rfl⟩
  generalize state.create path 0o600 = created at fresh empty
  refine ⟨stable _ fresh, trivial, ?_⟩
  refine ReadOnly.meets_bind noExtendedAttributes_readOnly (stable _ fresh) ?_ (fun _ => fails _ _)
  intro _
  -- The owner and the mode are set while the file is still empty.
  apply meets_bind
  refine meets_alter stable fresh (fun _ => .refl) ?_ fails
  intro owned
  obtain ⟨file, _, content, found⟩ := empty.modify fun file => { file with uid := protection.uid, gid := protection.gid }
  generalize created.modify path _ = current at owned found
  apply meets_bind
  refine meets_alter stable owned (fun _ => .refl) ?_ fails
  intro restricted
  obtain ⟨file, _, content, found⟩ := Holds.modify ⟨_, found, content⟩ fun file => { file with mode := protection.mode &&& 0o777 }
  generalize current.modify path _ = current at restricted found
  refine ReadOnly.meets_bind verifyFile_readOnly (stable _ restricted) ?_ (fun _ => fails _ _)
  intro _
  apply meets_bind
  refine meets_alter stable restricted (fun reach => sameExcept_modify _ _ _) ?_ fails
  intro written
  obtain ⟨file, _, content, found⟩ := Holds.modify ⟨_, found, content⟩ fun file => { file with content := file.content ++ bytes }
  refine meets_query (stable _ written) (fun _ => fails _ _) (holds _ written ⟨_, found, ?_⟩)
  simp [content]

/-- What holds wherever the commit of a source that held the original is stopped. -/
structure Recoverable (source : Path) (original accepted : Bytes) (command : CommandName) (start point : FileSystem) : Prop where
  document : point.Holds source original ∨ point.Holds source accepted ∧
    ∃ backup, sibling source backupSuffix command = .ok backup ∧ point.Holds backup original
  occupied : ∀ suffix ∈ [backupSuffix, stagingSuffix], ∀ path node, sibling source suffix command = .ok path →
    start.find path = some node → point.find path = some node

/-- What a commit that returned has done. -/
def Committed (source : Path) (original accepted : Bytes) (command : CommandName) :
    Except RunFailure InPlaceOutcome → FileSystem → Prop
  | .error _, _ => True
  | .ok .unchanged, _ => original = accepted
  | .ok (.replaced _), point => point.Holds source accepted ∧
      (∃ backup, sibling source backupSuffix command = .ok backup ∧ point.Holds backup original) ∧
      ∃ staging, sibling source stagingSuffix command = .ok staging ∧ point.find staging = none

/-- Installing staged bytes either does nothing or moves the staging file over the source. -/
theorem meets_installVerified (current : invariant state) (staged : state.Holds staging accepted)
    (holds : ∀ file, file.content = accepted → invariant ((state.remove staging).put source (.file file)) ∧
      post (.ok ()) ((state.remove staging).put source (.file file))) (fails : ∀ fault, post (.error fault) state) :
    (installVerified source staging original accepted command).Meets (.keeping invariant) state post := by
  refine ReadOnly.meets_bind requireRegularFile_readOnly current ?_ (fun _ => fails _)
  intro _
  refine requireOriginalBytes_observes.meets_bind current ?_ (fun _ _ => fails _)
  intro _ _
  refine ReadOnly.meets_bind readOnly_query.mapError current ?_ (fun _ => fails _)
  intro _
  refine ReadOnly.meets_bind readOnly_require current ?_ (fun _ => fails _)
  intro _
  obtain ⟨file, found, content⟩ := staged
  obtain ⟨invariant, finish⟩ := holds file content
  refine meets_atomic current trivial (fun _ => fails _) ?_ (fun _ _ => fails _)
  intro _ next done
  rw [found] at done
  split at done
  · cases done
  · cases done
  next same _ =>
    cases same
    cases done
    exact ⟨invariant, trivial, finish⟩

/-- The protocol keeps the original recoverable at every call. -/
theorem commit_meets (entry : start.Holds source original) :
    (commit source original accepted command).Meets (.keeping (Recoverable source original accepted command start)) start
      (Committed source original accepted command) := by
  have initial : Recoverable source original accepted command start start := ⟨.inl entry, fun _ _ _ _ _ found => found⟩
  have fails : ∀ fault after, Committed source original accepted command (.error fault) after := fun _ _ => trivial
  refine ReadOnly.meets_bind requireRegularFile_readOnly initial ?_ (fun _ => fails _ _)
  intro _
  refine requireOriginalBytes_observes.meets_bind initial ?_ (fun _ _ => fails _ _)
  intro _ _
  split
  next same => exact meets_pure initial same
  refine Program.Observes.meets_bind (observes_done rfl) initial ?_ (fun _ _ => fails _ _)
  intro backup backupPath
  refine Program.Observes.meets_bind (observes_done rfl) initial ?_ (fun _ _ => fails _ _)
  intro staging stagingPath
  refine requireUnoccupiedPath_observes.meets_bind initial ?_ (fun _ _ => fails _ _)
  intro _ noBackup
  refine requireUnoccupiedPath_observes.meets_bind initial ?_ (fun _ _ => fails _ _)
  intro _ noStaging
  refine ReadOnly.meets_bind capture_readOnly initial ?_ (fun _ => fails _ _)
  intro protection
  have backupApart := sibling_ne_source backupPath (by decide)
  have stagingApart := sibling_ne_source stagingPath (by decide)
  have apart := siblings_ne backupPath stagingPath
  -- Neither sibling was occupied, so from here on only the document itself is at stake.
  have recoverable : ∀ point : FileSystem, (point.Holds source original ∨ point.Holds source accepted ∧ point.Holds backup original) →
      Recoverable source original accepted command start point := by
    intro point document
    refine ⟨document.imp_right fun ⟨holds, kept⟩ => ⟨holds, backup, backupPath, kept⟩, ?_⟩
    intro suffix member path node found present
    rcases List.mem_pair.mp member with rfl | rfl
    · cases found.symm.trans backupPath
      cases (noBackup rfl).symm.trans present
    · cases found.symm.trans stagingPath
      cases (noStaging rfl).symm.trans present
  apply meets_bind
  refine meets_write protection ?_ (noBackup rfl) ?_ fails
  · intro after same
    exact recoverable after (.inl (same.holds backupApart entry))
  intro backed onlyBackup backedUp
  have kept := onlyBackup.holds backupApart entry
  apply meets_bind
  refine meets_write protection ?_ ((onlyBackup staging apart.symm).trans (noStaging rfl)) ?_ fails
  · intro after same
    exact recoverable after (.inl (same.holds stagingApart kept))
  intro ready onlyStaging staged
  have backedUp := onlyStaging.holds apart backedUp
  have current := recoverable ready (.inl (onlyStaging.holds stagingApart kept))
  refine requireAcceptedBytes_observes.meets_bind current ?_ (fun _ _ => fails _ _)
  intro _ _
  refine ReadOnly.meets_bind verifySource_readOnly current ?_ (fun _ => fails _ _)
  intro _
  refine ReadOnly.meets_bind verifyPath_readOnly current ?_ (fun _ => fails _ _)
  intro _
  refine ReadOnly.meets_bind verifyPath_readOnly current ?_ (fun _ => fails _ _)
  intro _
  apply meets_bind
  refine meets_installVerified current staged ?_ (fun _ => fails _ _)
  intro file content
  have replaced : ((ready.remove staging).put source (.file file)).Holds source accepted := ⟨file, by simp, content⟩
  have backedUp : ((ready.remove staging).put source (.file file)).Holds backup original := by
    obtain ⟨saved, found, same⟩ := backedUp
    exact ⟨saved, by simp [backupApart.symm, apart, found], same⟩
  have gone : ((ready.remove staging).put source (.file file)).find staging = none := by simp [stagingApart.symm]
  generalize (ready.remove staging).put source (.file file) = point at replaced backedUp gone
  have current := recoverable point (.inr ⟨replaced, backedUp⟩)
  refine ⟨current, ?_⟩
  refine ReadOnly.meets_bind verifyPath_readOnly current ?_ (fun _ => fails _ _)
  intro _
  refine requireAcceptedBytes_observes.meets_bind current ?_ (fun _ _ => fails _ _)
  intro _ _
  split
  · exact meets_raise current trivial
  · exact meets_pure current ⟨replaced, ⟨backup, backupPath, backedUp⟩, staging, stagingPath, gone⟩

/-- Until the source has been found to hold the original, nothing is written. -/
theorem commit_refuses (differs : ¬ start.Holds source original) :
    (commit source original accepted command).Meets (.keeping fun point => point = start) start
      fun result _ => ∃ fault, result = .error fault := by
  refine ReadOnly.meets_bind requireRegularFile_readOnly rfl ?_ (fun fault => ⟨fault, rfl⟩)
  intro _
  refine requireOriginalBytes_observes.meets_bind rfl ?_ (fun fault _ => ⟨fault, rfl⟩)
  intro _ found
  exact absurd (found rfl) differs

/-- Equal bytes are never written. -/
theorem commit_same_bytes : (commit source original original command).Meets (.keeping fun point => point = start) start fun _ _ => True := by
  refine ReadOnly.meets_bind requireRegularFile_readOnly rfl ?_ (fun _ => trivial)
  intro _
  refine requireOriginalBytes_observes.meets_bind rfl ?_ (fun _ _ => trivial)
  intro _ _
  rw [if_pos rfl]
  exact meets_pure rfl trivial

/-- Whatever call fails and wherever the process stops: a source that held the original holds the original or the accepted
bytes, and the backup holds the original whenever the source does not; an entry found at a sibling stays as it was; a
source that held something else is left alone, with everything around it, and the commit fails; an unchanged outcome
means equal bytes and no change; and a replaced outcome means the accepted bytes, a backup and no staging file. -/
theorem commit_is_recoverable (source : Path) (original accepted : Bytes) (command : CommandName) (start : FileSystem) (script : Script) :
    (start.Holds source original → ∀ point ∈ (commit source original accepted command script start).states,
      (point.Holds source original ∨ point.Holds source accepted) ∧
      (¬ point.Holds source original → ∃ backup, sibling source backupSuffix command = .ok backup ∧ point.Holds backup original)) ∧
    (∀ point ∈ (commit source original accepted command script start).states, ∀ suffix ∈ [backupSuffix, stagingSuffix],
      ∀ path node, sibling source suffix command = .ok path → start.find path = some node → point.find path = some node) ∧
    (¬ start.Holds source original → (∀ point ∈ (commit source original accepted command script start).states, point = start) ∧
      ∀ result, (commit source original accepted command script start).ending = .done result → ∃ fault, result = .error fault) ∧
    ((commit source original accepted command script start).ending = .done (.ok .unchanged) →
      (∀ point ∈ (commit source original accepted command script start).states, point = start) ∧ original = accepted) ∧
    ∀ backupName, (commit source original accepted command script start).ending = .done (.ok (.replaced backupName)) →
      (commit source original accepted command script start).final.Holds source accepted ∧
      (∃ backup, sibling source backupSuffix command = .ok backup ∧
        (commit source original accepted command script start).final.Holds backup original) ∧
      ∃ staging, sibling source stagingSuffix command = .ok staging ∧
        (commit source original accepted command script start).final.find staging = none := by
  by_cases entry : start.Holds source original
  · have meets : (commit source original accepted command).Meets _ start _ := commit_meets entry
    have plays : (Contract.keeping (Recoverable source original accepted command start)).Plays script := fun _ _ => trivial
    have recoverable := meets.states plays
    refine ⟨?_, ?_, fun differs => absurd entry differs, ?_, ?_⟩
    · intro _ point member
      rcases (recoverable point member).document with kept | ⟨replaced, backed⟩
      · exact ⟨.inl kept, fun lost => absurd kept lost⟩
      · exact ⟨.inr replaced, fun _ => backed⟩
    · intro point member
      exact (recoverable point member).occupied
    · intro ended
      obtain rfl : original = accepted := meets.ended plays ended
      exact ⟨commit_same_bytes.states fun _ _ => trivial, rfl⟩
    · intro backupName ended
      exact meets.ended plays ended
  · have meets : (commit source original accepted command).Meets _ start _ := commit_refuses entry
    have plays : (Contract.keeping fun point => point = start).Plays script := fun _ _ => trivial
    have unchanged := meets.states plays
    have refused : ∀ result, (commit source original accepted command script start).ending = .done result →
        ∃ fault, result = .error fault := fun result ended => meets.ended plays ended
    refine ⟨fun holds => absurd holds entry, ?_, fun _ => ⟨unchanged, refused⟩, ?_, ?_⟩
    · intro point member suffix _ path node _ found
      rw [unchanged point member]
      exact found
    · intro ended
      obtain ⟨_, impossible⟩ := refused _ ended
      cases impossible
    · intro backupName ended
      obtain ⟨_, impossible⟩ := refused _ ended
      cases impossible

example : (commit ⟨[100], some [110]⟩ [1] [2] .rewrite ⟨[], []⟩
    ⟨Table.empty.upsert ⟨[100], some [110]⟩ (.file ⟨[1], 7, 1, 0, 0, 0o644, false⟩), fun _ => true, 0, 0, false, 8⟩).ending =
      .done (.ok (.replaced "n.retonr-backup".toList)) := rfl

end Replace

end Retonr
