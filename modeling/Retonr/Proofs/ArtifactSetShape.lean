import Retonr.Proofs.PathTrie

/-! The shape of an artifact set's tree: its planned directories are the ancestors of its members, no
member is one of them, and a listing has that shape exactly when its verification says so. -/

namespace Retonr
open Text List Retonr.Except ArtifactSetRelativePath ArtifactSetManifest

theorem splitOn_append_slash (front back : Text) : (front ++ '/' :: back).splitOn '/' = front.splitOn '/' ++ back.splitOn '/' := by
  induction front with
  | nil => simp [splitOn_cons_eq_if_modifyHead]
  | cons char front ih =>
    rw [cons_append, splitOn_cons_eq_if_modifyHead, splitOn_cons_eq_if_modifyHead, ih]
    split
    · rfl
    · cases parts : front.splitOn '/' with
      | nil => exact absurd parts (splitOn_ne_nil _ _)
      | cons head tail => rfl

theorem joinPath_append {components rest : List Text} (nonempty : components ≠ []) (more : rest ≠ []) :
    joinPath (components ++ rest) = joinPath components ++ '/' :: joinPath rest := by
  induction components with
  | nil => exact absurd rfl nonempty
  | cons first components ih =>
    obtain ⟨next, after, rfl⟩ := exists_cons_of_ne_nil more
    cases components with
    | nil => simp [joinPath, List.intercalate]
    | cons second components =>
      have step := ih (cons_ne_nil _ _)
      simp only [joinPath, List.intercalate, cons_append, intersperse_cons_cons, flatten_cons] at step ⊢
      rw [step]
      simp

namespace ArtifactSetManifest

variable {manifest : ArtifactSetManifest}

/-- The components of every directory the members need, each once. -/
def directoryComponents (manifest : ArtifactSetManifest) : List (List Text) :=
  (manifest.members.flatMap fun member => properPrefixes member.relativePath.components).dedup

/-- The components of every entry of the set's tree. -/
def treeComponents (manifest : ArtifactSetManifest) : List (List Text) :=
  manifest.directoryComponents ++ manifest.members.map fun member => member.relativePath.components

theorem mem_directoryComponents {components : List Text} :
    components ∈ manifest.directoryComponents ↔ ∃ member ∈ manifest.members, components ∈ properPrefixes member.relativePath.components := by
  simp [directoryComponents]

theorem exists_of_mem_treeComponents {components : List Text} (member : components ∈ manifest.treeComponents) :
    ∃ path : ArtifactSetRelativePath, path.components = components := by
  rcases mem_append.mp member with directory | file
  · obtain ⟨owner, _, above⟩ := mem_directoryComponents.mp directory
    obtain ⟨nonempty, rest, _, same⟩ := mem_properPrefixes.mp above
    exact owner.relativePath.exists_of_prefix nonempty same
  · obtain ⟨owner, _, same⟩ := mem_map.mp file
    exact ⟨owner.relativePath, same⟩

theorem joinPath_injOn {components other : List Text} (member : components ∈ manifest.treeComponents) (inside : other ∈ manifest.treeComponents)
    (same : joinPath components = joinPath other) : components = other := by
  obtain ⟨path, rfl⟩ := exists_of_mem_treeComponents member
  obtain ⟨again, rfl⟩ := exists_of_mem_treeComponents inside
  rw [path.joinPath_components, again.joinPath_components] at same
  rw [components, same, components]

theorem nodup_directories : manifest.directories.Nodup := ((perm_insertionSort _ _).nodup_iff).mpr (nodup_dedup _)

theorem directories_perm : manifest.directories.Perm (manifest.directoryComponents.map joinPath) := by
  refine (perm_ext_iff_of_nodup nodup_directories ?_).mpr ?_
  · refine List.Nodup.map_on ?_ (nodup_dedup _)
    intro components member other inside same
    exact joinPath_injOn (mem_append_left _ member) (mem_append_left _ inside) same
  · intro path
    rw [directories, (perm_insertionSort _ _).mem_iff, mem_dedup, mem_flatMap, mem_map]
    constructor
    · rintro ⟨member, inside, mapped⟩
      obtain ⟨components, above, same⟩ := mem_map.mp mapped
      exact ⟨components, mem_directoryComponents.mpr ⟨member, inside, above⟩, same⟩
    · rintro ⟨components, planned, same⟩
      obtain ⟨member, inside, above⟩ := mem_directoryComponents.mp planned
      exact ⟨member, inside, mem_map.mpr ⟨components, above, same⟩⟩

theorem validateMembers_ascending {members : List ArtifactSetMember} {prior : Option Text} {pathBytes totalBytes total : Nat} {root : PathNode}
    (accepted : validateMembers members prior pathBytes totalBytes root = .ok total) :
    (∀ member ∈ members, ∀ path ∈ prior, path < member.relativePath.asStr) ∧
      members.Pairwise fun left right => left.relativePath.asStr < right.relativePath.asStr := by
  induction members generalizing prior pathBytes totalBytes root with
  | nil => simp
  | cons member members ih =>
    simp only [validateMembers, bind_eq_ok, exists_unit, require_eq_ok] at accepted
    obtain ⟨above, _, _, grown, _, rest⟩ := accepted
    obtain ⟨later, ascending⟩ := ih rest
    have following : ∀ other ∈ members, member.relativePath.asStr < other.relativePath.asStr := fun other inside => later other inside _ rfl
    refine ⟨forall_mem_cons.mpr ⟨above, ?_⟩, pairwise_cons.mpr ⟨following, ascending⟩⟩
    intro other inside path same
    exact lt_trans (above path same) (following other inside)

section
variable (valid : manifest.validate = .ok ())
include valid

theorem nodup_members : (manifest.members.map fun member => member.relativePath.components).Nodup := by
  simp only [validate, bind_eq_ok, exists_unit, require_eq_ok] at valid
  obtain ⟨_, _, _, total, accepted, _⟩ := valid
  refine pairwise_map.mpr ((validateMembers_ascending accepted).2.imp ?_)
  intro left right before same
  have equal : left.relativePath.asStr = right.relativePath.asStr := by
    rw [← left.relativePath.joinPath_components, same, right.relativePath.joinPath_components]
  exact absurd equal (ne_of_lt before)

omit valid in
theorem validateMembers_inserts {members : List ArtifactSetMember} {prior : Option Text} {pathBytes totalBytes total : Nat} {root : PathNode}
    (accepted : validateMembers members prior pathBytes totalBytes root = .ok total) :
    ∃ trie, PathNode.insertAll (members.map fun member => member.relativePath) root = .ok trie := by
  induction members generalizing prior pathBytes totalBytes root with
  | nil => exact ⟨root, rfl⟩
  | cons member members ih =>
    simp only [validateMembers, bind_eq_ok, exists_unit, require_eq_ok] at accepted
    obtain ⟨_, _, _, grown, inserted, rest⟩ := accepted
    obtain ⟨trie, others⟩ := ih rest
    refine ⟨trie, ?_⟩
    rw [PathNode.insertAll, map_cons, foldlM_cons, inserted]
    exact others

theorem members_apart {member other : ArtifactSetMember} (inside : member ∈ manifest.members)
    (within : other ∈ manifest.members) (distinct : member.relativePath ≠ other.relativePath) :
    ¬member.relativePath.Collides other.relativePath := by
  simp only [validate, bind_eq_ok, exists_unit, require_eq_ok] at valid
  obtain ⟨_, _, _, total, accepted, _⟩ := valid
  have apart := (insertAll_iff_apart _).mp (validateMembers_inserts accepted)
  have symmetric : Std.Symm fun path other : ArtifactSetRelativePath => ¬path.Collides other :=
    ⟨fun _ _ free collides => free collides.symm⟩
  exact apart.forall (mem_map_of_mem inside) (mem_map_of_mem within) distinct

/-- A member is no directory above a member. -/
theorem components_not_mem_directoryComponents {member : ArtifactSetMember} (inside : member ∈ manifest.members) :
    member.relativePath.components ∉ manifest.directoryComponents := by
  intro directory
  obtain ⟨owner, within, above⟩ := mem_directoryComponents.mp directory
  obtain ⟨nonempty, rest, proper, same⟩ := mem_properPrefixes.mp above
  have distinct : member.relativePath ≠ owner.relativePath := by
    intro equal
    rw [← equal, self_eq_append_right] at same
    exact proper same
  refine members_apart valid inside within distinct ((collides_iff _ _).mpr ?_)
  refine clash_of_lowered_start nonempty ?_
  rw [same, lowered, lowered, map_append]
  exact prefix_append _ _

theorem path_not_mem_directories {member : ArtifactSetMember} (inside : member ∈ manifest.members) :
    member.relativePath.asStr ∉ manifest.directories := by
  intro planned
  obtain ⟨components, directory, same⟩ := mem_map.mp (directories_perm.mem_iff.mp planned)
  have equal : components = member.relativePath.components := by
    refine joinPath_injOn (mem_append_left _ directory) (mem_append_right _ (mem_map_of_mem inside)) ?_
    rw [same, member.relativePath.joinPath_components]
  exact components_not_mem_directoryComponents valid inside (equal ▸ directory)

theorem nodup_paths : (manifest.members.map fun member => member.relativePath.asStr).Nodup := by
  refine pairwise_map.mpr ((pairwise_map.mp (nodup_members valid)).imp ?_)
  intro left right unlike same
  exact unlike (congrArg (List.splitOn '/') same)

theorem expectedTree_rows : (expectedTree manifest.directories manifest).rows =
      manifest.directories.map (fun directory => (directory, (.directory, 0))) ++
        manifest.members.map fun member => (member.relativePath.asStr, (.regularFile, member.byteSize.toNat)) := by
  have first : (manifest.directories.foldl (fun expected directory => expected.upsert directory (ManagedTreeEntryKind.directory, 0))
      Table.empty).rows = manifest.directories.map fun directory => (directory, (.directory, 0)) := by
    refine (Table.rows_foldl_upsert ?_ fun _ _ => rfl).trans (nil_append _)
    rw [map_id']
    exact nodup_directories
  rw [expectedTree, Table.rows_foldl_upsert (nodup_paths valid), first]
  intro member inside
  rw [Option.eq_none_iff_forall_ne_some]
  intro row found
  rw [← Table.mem_rows_iff, first] at found
  obtain ⟨directory, planned, same⟩ := mem_map.mp found
  cases same
  exact path_not_mem_directories valid inside planned

end

/-- The planned directories are the proper ancestors of the members. -/
theorem mem_directories_iff (manifest : ArtifactSetManifest) (path : Text) :
    path ∈ manifest.directories ↔ ∃ member ∈ manifest.members, ∃ rest, member.relativePath.asStr = path ++ '/' :: rest := by
  rw [directories, (perm_insertionSort _ _).mem_iff, mem_dedup, mem_flatMap]
  refine exists_congr fun member => and_congr_right fun _ => ?_
  rw [mem_map]
  constructor
  · rintro ⟨components, above, rfl⟩
    obtain ⟨nonempty, rest, proper, same⟩ := mem_properPrefixes.mp above
    exact ⟨joinPath rest, by rw [← member.relativePath.joinPath_components, same, joinPath_append nonempty proper]⟩
  · rintro ⟨rest, same⟩
    refine ⟨path.splitOn '/', mem_properPrefixes.mpr ⟨splitOn_ne_nil _ _, rest.splitOn '/', splitOn_ne_nil _ _, ?_⟩,
      intercalate_splitOn _⟩
    rw [components, same, splitOn_append_slash]

end ArtifactSetManifest

/-- A listing of exactly the planned directories and the members. -/
structure ExactShape (entries : List ManagedTreeEntry) (manifest : ArtifactSetManifest) (plan : ValidatedSetPlan) : Prop where
  directory : ∀ path ∈ plan.directories, ∃ entry ∈ entries,
    entry.relativePath.asStr = path ∧ entry.kind = .directory ∧ entry.byteSize = 0
  file : ∀ member ∈ manifest.members, ∃ entry ∈ entries, entry.relativePath = member.relativePath ∧ entry.kind = .regularFile ∧
    entry.byteSize = member.byteSize.toNat ∧ entry.fingerprint.hasSingleLink = true
  only : ∀ entry ∈ entries, entry.relativePath.asStr ∈ plan.directories ∨ ∃ member ∈ manifest.members, entry.relativePath = member.relativePath

theorem ArtifactSetRelativePath.asStr_injective : Function.Injective asStr := by
  rintro ⟨_, _⟩ ⟨_, _⟩ same
  simpa using same

theorem planArtifactSet_eq_ok {manifest : ArtifactSetManifest} {bounds : ArtifactSetPlanBounds} {plan : ValidatedSetPlan}
    (planned : planArtifactSet manifest bounds = .ok plan) : manifest.validate = .ok () ∧ plan.directories = manifest.directories ∧
      plan.treeEntries = manifest.directories.length + manifest.members.length := by
  simp only [planArtifactSet, bind_eq_ok, exists_unit, mapError_eq_ok] at planned
  obtain ⟨_, valid, _, rest⟩ := planned
  split at rest
  · cases rest
  simp only [bind_eq_ok, exists_unit, Except.ok.injEq] at rest
  obtain ⟨_, _, installed, _, rfl⟩ := rest
  exact ⟨valid, rfl, rfl⟩

section Shape

variable {manifest : ArtifactSetManifest} {plan : ValidatedSetPlan} {snapshot : ManagedTreeSnapshot}

theorem matchesExpected_iff (valid : manifest.validate = .ok ()) (entry : ManagedTreeEntry) :
    matchesExpected (expectedTree manifest.directories manifest) true entry = true ↔
      (entry.relativePath.asStr ∈ manifest.directories ∧ entry.kind = .directory ∧ entry.byteSize = 0) ∨
        ∃ member ∈ manifest.members, entry.relativePath = member.relativePath ∧ entry.kind = .regularFile ∧
          entry.byteSize = member.byteSize.toNat ∧ entry.fingerprint.hasSingleLink = true := by
  have rows := expectedTree_rows valid
  have found (kind : ManagedTreeEntryKind) (size : Nat) :
      (expectedTree manifest.directories manifest).find entry.relativePath.asStr = some (kind, size) ↔
        (entry.relativePath.asStr ∈ manifest.directories ∧ kind = .directory ∧ size = 0) ∨
          ∃ member ∈ manifest.members, entry.relativePath = member.relativePath ∧ kind = .regularFile ∧ size = member.byteSize.toNat := by
    rw [← Table.mem_rows_iff, rows, mem_append, mem_map, mem_map]
    constructor
    · rintro (⟨directory, planned, same⟩ | ⟨member, inside, same⟩)
      · cases same
        exact .inl ⟨planned, rfl, rfl⟩
      · simp only [Prod.mk.injEq] at same
        obtain ⟨path, rfl, rfl⟩ := same
        exact .inr ⟨member, inside, (asStr_injective path).symm, rfl, rfl⟩
    · rintro (⟨planned, rfl, rfl⟩ | ⟨member, inside, same, rfl, rfl⟩)
      · exact .inl ⟨_, planned, rfl⟩
      · exact .inr ⟨member, inside, by rw [same]⟩
  constructor
  · intro accepted
    rw [matchesExpected] at accepted
    split at accepted
    · cases accepted
    next kind size expected =>
      simp only [Bool.and_eq_true, beq_iff_eq, Bool.not_true, Bool.false_or, Bool.or_eq_true, bne_iff_ne] at accepted
      obtain ⟨⟨rfl, rfl⟩, linked⟩ := accepted
      rcases (found _ _).mp expected with directory | ⟨member, inside, same, kind, size⟩
      · exact .inl directory
      · exact .inr ⟨member, inside, same, kind, size, linked.resolve_left fun other => other kind⟩
  · rintro (⟨planned, kind, size⟩ | ⟨member, inside, same, kind, size, linked⟩)
    · rw [matchesExpected, (found _ _).mpr (.inl ⟨planned, rfl, rfl⟩)]
      simp [kind, size]
    · rw [matchesExpected, (found _ _).mpr (.inr ⟨member, inside, same, rfl, rfl⟩)]
      simp [kind, size, linked]

/-- The paths of everything the set's tree holds. -/
def expectedPaths (manifest : ArtifactSetManifest) : List Text :=
  manifest.directories ++ manifest.members.map fun member => member.relativePath.asStr

theorem nodup_expectedPaths (valid : manifest.validate = .ok ()) : (expectedPaths manifest).Nodup := by
  refine nodup_append.mpr ⟨nodup_directories, nodup_paths valid, ?_⟩
  rintro path directory _ file rfl
  obtain ⟨member, inside, rfl⟩ := mem_map.mp file
  exact path_not_mem_directories valid inside directory

theorem validateTreeShape_iff (valid : manifest.validate = .ok ()) (directories : plan.directories = manifest.directories)
    (treeEntries : plan.treeEntries = (expectedPaths manifest).length) (distinct : (snapshot.entries.map (·.relativePath)).Nodup) (source : Bool) :
    validateTreeShape snapshot manifest plan true source = .ok () ↔ ExactShape snapshot.entries manifest plan := by
  have paths : (snapshot.entries.map (·.relativePath.asStr)).Nodup := by
    rw [← Function.comp_def asStr, ← map_map]
    exact distinct.map asStr_injective
  have rows : (expectedTree manifest.directories manifest).rows.length = (expectedPaths manifest).length := by
    simp [expectedTree_rows valid, expectedPaths]
  rw [validateTreeShape, directories, require_eq_ok, all_eq_true, treeEntries, rows]
  constructor
  · rintro ⟨length, -, accepted⟩
    have shaped := fun entry member => (matchesExpected_iff valid entry).mp (accepted entry member)
    have contained : snapshot.entries.map (·.relativePath.asStr) ⊆ expectedPaths manifest := by
      intro path member
      obtain ⟨entry, inside, rfl⟩ := mem_map.mp member
      rcases shaped entry inside with ⟨planned, -⟩ | ⟨owner, within, same, -⟩
      · exact mem_append_left _ planned
      · exact mem_append_right _ (mem_map.mpr ⟨owner, within, by rw [same]⟩)
    -- as many distinct paths as are expected, all of them expected: none is missing
    have perm : (snapshot.entries.map (·.relativePath.asStr)).Perm (expectedPaths manifest) :=
      (paths.subperm contained).perm_of_length_le (by rw [length_map, length])
    refine ⟨?_, ?_, ?_⟩
    · intro path planned
      rw [directories] at planned
      obtain ⟨entry, inside, rfl⟩ := mem_map.mp (perm.mem_iff.mpr (mem_append_left _ planned))
      rcases shaped entry inside with ⟨-, kind, size⟩ | ⟨owner, within, same, -⟩
      · exact ⟨entry, inside, rfl, kind, size⟩
      · rw [same] at planned
        exact absurd planned (path_not_mem_directories valid within)
    · intro member within
      obtain ⟨entry, inside, path⟩ := mem_map.mp (perm.mem_iff.mpr (mem_append_right _ (mem_map_of_mem within)))
      have same := asStr_injective path
      rcases shaped entry inside with ⟨planned, -⟩ | ⟨owner, owned, owner_same, kind, size, linked⟩
      · rw [same] at planned
        exact absurd planned (path_not_mem_directories valid within)
      · have single : owner = member := by
          refine inj_on_of_nodup_map (nodup_paths valid) owned within ?_
          rw [← owner_same, same]
        exact ⟨entry, inside, same, kind, single ▸ size, linked⟩
    · intro entry inside
      rcases shaped entry inside with ⟨planned, -⟩ | ⟨owner, within, same, -⟩
      · exact .inl (directories ▸ planned)
      · exact .inr ⟨owner, within, same⟩
  · intro shape
    have single : ∀ entry ∈ snapshot.entries, ∀ other ∈ snapshot.entries, entry.relativePath = other.relativePath → entry = other :=
      fun entry inside other within same => inj_on_of_nodup_map distinct inside within same
    have perm : (snapshot.entries.map (·.relativePath.asStr)).Perm (expectedPaths manifest) := by
      refine (perm_ext_iff_of_nodup paths (nodup_expectedPaths valid)).mpr fun path => ?_
      simp only [expectedPaths, mem_append, mem_map]
      constructor
      · rintro ⟨entry, inside, rfl⟩
        rcases shape.only entry inside with planned | ⟨member, within, same⟩
        · exact .inl (directories ▸ planned)
        · exact .inr ⟨member, within, by rw [same]⟩
      · rintro (planned | ⟨member, within, rfl⟩)
        · obtain ⟨entry, inside, same, -⟩ := shape.directory path (directories ▸ planned)
          exact ⟨entry, inside, same⟩
        · obtain ⟨entry, inside, same, -⟩ := shape.file member within
          exact ⟨entry, inside, by rw [same]⟩
    have length : snapshot.entries.length = (expectedPaths manifest).length := by rw [← perm.length_eq, length_map]
    refine ⟨length, length, ?_⟩
    intro entry inside
    rw [matchesExpected_iff valid]
    rcases shape.only entry inside with planned | ⟨member, within, same⟩
    · obtain ⟨other, listed, path, kind, size⟩ := shape.directory _ planned
      have equal := single other listed entry inside (asStr_injective path)
      exact .inl ⟨directories ▸ planned, equal ▸ kind, equal ▸ size⟩
    · obtain ⟨other, listed, path, kind, size, linked⟩ := shape.file member within
      have equal := single other listed entry inside (path.trans same.symm)
      exact .inr ⟨member, within, same, equal ▸ kind, equal ▸ size, equal ▸ linked⟩

end Shape

/-- The plan of an accepted manifest names the ancestors of the members and no member, counts the
expected paths, and the verification of a listing accepts exactly the planned shape. -/
theorem tree_verification_is_exact (manifest : ArtifactSetManifest) (bounds : ArtifactSetPlanBounds) (plan : ValidatedSetPlan)
    (planned : planArtifactSet manifest bounds = .ok plan) :
    (∀ path, path ∈ plan.directories ↔ ∃ member ∈ manifest.members, ∃ rest, member.relativePath.asStr = path ++ '/' :: rest) ∧
    (∀ member ∈ manifest.members, member.relativePath.asStr ∉ plan.directories) ∧
    plan.treeEntries = (plan.directories ++ manifest.members.map fun member => member.relativePath.asStr).dedup.length ∧
    ∀ (snapshot : ManagedTreeSnapshot) (source : Bool), (snapshot.entries.map (·.relativePath)).Nodup →
      (validateTreeShape snapshot manifest plan true source = .ok () ↔ ExactShape snapshot.entries manifest plan) := by
  obtain ⟨valid, directories, treeEntries⟩ := planArtifactSet_eq_ok planned
  have counted : plan.treeEntries = (expectedPaths manifest).length := by
    rw [treeEntries, expectedPaths, length_append, length_map]
  refine ⟨?_, ?_, ?_, ?_⟩
  · rw [directories]
    exact mem_directories_iff manifest
  · intro member inside
    rw [directories]
    exact path_not_mem_directories valid inside
  · have once : (expectedPaths manifest).dedup = expectedPaths manifest := (nodup_expectedPaths valid).dedup
    rw [directories, counted]
    exact congrArg List.length once.symm
  · intro snapshot source distinct
    exact validateTreeShape_iff valid directories counted distinct source

/-- A set of the one two-byte file `a/b`. -/
def nestedManifest : ArtifactSetManifest where
  members := [⟨⟨⟨List.replicate 64 'a', Eq.refl true⟩⟩, 2, nestedPath⟩]
  schemaVersion := artifactSetManifestSchemaVersion

/-- The listing of its tree: the directory `a` and the file in it. -/
def nestedSnapshot : ManagedTreeSnapshot where
  rootFingerprint := ⟨1, 1, 1⟩
  entries := [⟨⟨['a'], by decide⟩, .directory, 0, ⟨2, 1, 1⟩⟩, ⟨nestedPath, .regularFile, 2, ⟨3, 2, 1⟩⟩]

theorem tree_verification_is_exact_nested : ∃ plan, planArtifactSet nestedManifest ⟨1, 2, 2, 2⟩ = .ok plan ∧
    (validateTreeShape nestedSnapshot nestedManifest plan true false = .ok () ↔ ExactShape nestedSnapshot.entries nestedManifest plan) := by
  have succeeds : (planArtifactSet nestedManifest ⟨1, 2, 2, 2⟩).toOption.isSome = true := by decide +kernel
  cases planned : planArtifactSet nestedManifest ⟨1, 2, 2, 2⟩ with
  | error fault => simp [planned, Except.toOption] at succeeds
  | ok plan =>
    obtain ⟨-, -, -, exact⟩ := tree_verification_is_exact nestedManifest ⟨1, 2, 2, 2⟩ plan planned
    exact ⟨plan, rfl, exact nestedSnapshot false (by decide)⟩

end Retonr
