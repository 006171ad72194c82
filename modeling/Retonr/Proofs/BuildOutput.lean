import Retonr.RuntimeIsolation.BuildOutput

/-! The commitment to an output tree is canonical: it exists exactly for complete trees, does
not depend on the order of the entries, and determines every one of them. -/

namespace Retonr.RuntimeIsolation
open Text Framing List Retonr.Except

theorem ancestorsListed_iff {directories : List Text} {fuel : Nat} {path : Text} (enough : path.length ≤ fuel) :
    ancestorsListed directories fuel path = true ↔ ∀ parent rest, path = parent ++ '/' :: rest → parent ∈ directories := by
  induction fuel generalizing path with
  | zero =>
    obtain rfl := length_eq_zero_iff.mp (Nat.le_zero.mp enough)
    simp [ancestorsListed]
  | succ fuel ih =>
    simp only [ancestorsListed]
    cases split : rsplitOnce ['/'] path with
    | none =>
      have outside := rsplitOnce_eq_none.mp split
      simp only [true_iff]
      rintro parent rest rfl
      simp at outside
    | some parts =>
      obtain ⟨parent, name⟩ := parts
      obtain ⟨rfl, last⟩ := rsplitOnce_eq_some.mp split
      have shorter : parent.length ≤ fuel := by
        simp only [length_append, length_cons] at enough
        omega
      simp only [Bool.and_eq_true, contains_iff_mem, ih shorter]
      constructor
      · rintro ⟨direct, above⟩ other rest same
        rcases before_last_separator last same with here | ⟨between, further⟩
        · exact here ▸ direct
        · exact above other between further
      · intro listed
        exact ⟨listed parent name rfl, fun other rest same => listed other (rest ++ '/' :: name) (by simp [same])⟩

namespace ControlledBuildOutputTreeEntry

def byteSize (entry : ControlledBuildOutputTreeEntry) : Nat :=
  match entry.kind with
  | .directory => 0
  | .regularFile byteSize _ => byteSize.toNat

def fileCount (entry : ControlledBuildOutputTreeEntry) : Nat := if entry.isDirectory then 0 else 1

def kindBytes : ControlledBuildOutputTreeEntryKind → Bytes
  | .directory => [0]
  | .regularFile byteSize digest => 1 :: (bigEndian 8 byteSize.toNat ++ sized (encode digest.asStr))

def bytes (entry : ControlledBuildOutputTreeEntry) : Bytes :=
  sized (encode entry.relativePath) ++ (bigEndian 4 entry.unixMode.toNat ++ kindBytes entry.kind)

theorem byteLen_lt (entry : ControlledBuildOutputTreeEntry) : byteLen entry.relativePath < 2 ^ 64 := by
  have portable := entry.portable
  simp only [validPortableRelativePath, Bool.and_eq_true, decide_eq_true_eq] at portable
  obtain ⟨⟨⟨⟨⟨⟨-, bounded⟩, -⟩, -⟩, -⟩, -⟩, -⟩ := portable
  exact lt_of_le_of_lt bounded (by decide)

theorem directory_iff {relativePath : Text} {unixMode : UInt32} : (∃ entry, directory relativePath unixMode = .ok entry) ↔
      validPortableRelativePath relativePath = true ∧ unixMode &&& ~~~0o777 = 0 := by
  simp only [directory, new]
  split <;> simp [*]

theorem regularFile_iff {relativePath : Text} {byteSize : UInt64} {digest : Digest} {unixMode : UInt32} :
    (∃ entry, regularFile relativePath byteSize digest unixMode = .ok entry) ↔
      byteSize.toNat ≤ maximumControlledBuildOutputBytes ∧ validPortableRelativePath relativePath = true ∧ unixMode &&& ~~~0o777 = 0 := by
  simp only [regularFile, bind_eq_ok, require_eq_ok, exists_unit, exists_and_left, new]
  split <;> simp [*]

theorem selfDelimiting_kindBytes : SelfDelimiting (fun _ => True) kindBytes := by
  rintro (_ | ⟨size, digest⟩) (_ | ⟨otherSize, otherDigest⟩) - - rest more same
  · exact ⟨rfl, by simpa [kindBytes] using same⟩
  · simp [kindBytes] at same
  · simp [kindBytes] at same
  · simp only [kindBytes, cons_append, List.cons.injEq, true_and] at same
    simp only [append_assoc] at same
    obtain ⟨rfl, after⟩ := SelfDelimiting.uint64 trivial trivial same
    obtain ⟨rfl, follows⟩ := Digest.selfDelimiting trivial trivial after
    exact ⟨rfl, follows⟩

theorem selfDelimiting_bytes : SelfDelimiting (fun _ => True) bytes := by
  have fields := (SelfDelimiting.sizedText.pair (SelfDelimiting.uint32.pair selfDelimiting_kindBytes)).comap
    (fun entry : ControlledBuildOutputTreeEntry => (entry.relativePath, entry.unixMode, entry.kind)) (by
      intro entry other same
      cases entry
      cases other
      simp_all)
  intro entry other _ _
  exact fields ⟨entry.byteLen_lt, trivial, trivial⟩ ⟨other.byteLen_lt, trivial, trivial⟩

end ControlledBuildOutputTreeEntry

open ControlledBuildOutputTreeEntry

/-- A bounded tree in which every parent is a directory, holding at least one regular file. -/
structure CompleteTree (entries : List ControlledBuildOutputTreeEntry) : Prop where
  nonempty : 1 ≤ entries.length
  bounded : entries.length ≤ maximumControlledBuildOutputTreeEntries
  portable : ∀ entry ∈ entries, validPortableRelativePath entry.relativePath = true
  distinct : entries.Pairwise fun entry other => entry.relativePath ≠ other.relativePath
  ancestors : ∀ entry ∈ entries, ∀ parent rest, entry.relativePath = parent ++ '/' :: rest →
    ∃ directory ∈ entries, directory.kind = .directory ∧ directory.relativePath = parent
  regularFile : ∃ entry ∈ entries, entry.kind ≠ .directory
  bytes : (entries.map byteSize).sum ≤ maximumControlledBuildOutputBytes

variable {entries : List ControlledBuildOutputTreeEntry}

theorem CompleteTree.perm {others : List ControlledBuildOutputTreeEntry} (complete : CompleteTree entries)
    (same : entries.Perm others) : CompleteTree others where
  nonempty := same.length_eq ▸ complete.nonempty
  bounded := same.length_eq ▸ complete.bounded
  portable entry member := complete.portable entry (same.mem_iff.mpr member)
  distinct := (same.pairwise_iff fun apart => apart.symm).mp complete.distinct
  ancestors entry member parent rest path := by
    obtain ⟨above, listed, found⟩ := complete.ancestors entry (same.mem_iff.mpr member) parent rest path
    exact ⟨above, same.mem_iff.mp listed, found⟩
  regularFile := by
    obtain ⟨entry, member, regular⟩ := complete.regularFile
    exact ⟨entry, same.mem_iff.mp member, regular⟩
  bytes := (same.map byteSize).sum_nat ▸ complete.bytes

theorem hasAdjacentDuplicate_iff (sorted : entries.Pairwise fun left right => encode left.relativePath ≤ encode right.relativePath) :
    hasAdjacentDuplicate entries = false ↔ entries.Pairwise fun entry other => entry.relativePath ≠ other.relativePath := by
  induction entries with
  | nil => simp [hasAdjacentDuplicate]
  | cons first rest ih =>
    cases rest with
    | nil => simp [hasAdjacentDuplicate]
    | cons second rest =>
      obtain ⟨least, sorted⟩ := pairwise_cons.mp sorted
      rw [hasAdjacentDuplicate, Bool.or_eq_false_iff, ih sorted, pairwise_cons (a := first)]
      refine and_congr_left fun distinct => ?_
      simp only [beq_eq_false_iff_ne, ne_eq]
      refine ⟨fun differs entry member same => ?_, fun differs => differs second (by simp)⟩
      -- An entry with the first path is squeezed between the first path and the second.
      have below : encode second.relativePath ≤ encode first.relativePath := by
        rcases mem_cons.mp member with rfl | later
        · exact same ▸ Std.le_refl _
        · exact same ▸ (pairwise_cons.mp sorted).1 entry later
      exact differs (encode_injective (Std.le_antisymm (least second (by simp)) below))

theorem hasCompleteDirectoryShape_iff :
    hasCompleteDirectoryShape entries = true ↔ ∀ entry ∈ entries, ∀ parent rest, entry.relativePath = parent ++ '/' :: rest →
      ∃ directory ∈ entries, directory.kind = .directory ∧ directory.relativePath = parent := by
  simp only [hasCompleteDirectoryShape, all_eq_true, ancestorsListed_iff (Nat.le_refl _), mem_map, mem_filter,
    isDirectory, beq_iff_eq, and_assoc]

namespace ControlledBuildOutputTree

theorem perm_sortEntries (entries : List ControlledBuildOutputTreeEntry) : (sortEntries entries).Perm entries :=
  perm_insertionSort _ _

variable {entries others : List ControlledBuildOutputTreeEntry}

theorem sortEntries_perm (distinct : entries.Pairwise fun entry other => entry.relativePath ≠ other.relativePath) (same : entries.Perm others) :
    sortEntries entries = sortEntries others := by
  refine List.Perm.eq_of_pairwise ?_ (pairwise_insertionSort _ _) (pairwise_insertionSort _ _)
    ((perm_sortEntries _).trans (same.trans (perm_sortEntries _).symm))
  intro entry other member otherMember least greatest
  by_contra differs
  have paths := encode_injective (Std.le_antisymm least greatest)
  have first : entry ∈ entries := (perm_sortEntries entries).mem_iff.mp member
  have second : other ∈ entries := same.mem_iff.mpr ((perm_sortEntries others).mem_iff.mp otherMember)
  have symmetric : Std.Symm fun entry other : ControlledBuildOutputTreeEntry => entry.relativePath ≠ other.relativePath :=
    ⟨fun _ _ apart same => apart same.symm⟩
  exact distinct.forall first second differs paths

/-- One entry extends the digest input by its own bytes, unless a total passes its limit. -/
theorem compileEntry_eq_ok {state compiled : Compilation} {entry : ControlledBuildOutputTreeEntry}
    (counted : state.regularFileCount < 2 ^ 32) (bounded : state.totalFileBytes ≤ maximumControlledBuildOutputBytes) :
    compileEntry state entry = .ok compiled ↔
      (state.regularFileCount + entry.fileCount < 2 ^ 32 ∧ state.totalFileBytes + entry.byteSize ≤ maximumControlledBuildOutputBytes) ∧
      compiled = ⟨⟨state.digest.bytes ++ entry.bytes⟩, state.regularFileCount + entry.fileCount, state.totalFileBytes + entry.byteSize⟩ := by
  have small : maximumControlledBuildOutputBytes < 2 ^ 64 := by decide
  cases kind : entry.kind with
  | directory =>
    have counts : entry.fileCount = 0 := by simp [fileCount, isDirectory, kind]
    have size : entry.byteSize = 0 := by simp [byteSize, kind]
    have compiles : compileEntry state entry = .ok { state with digest := ⟨state.digest.bytes ++ entry.bytes⟩ } := by
      simp [compileEntry, kind, ControlledBuildOutputTreeEntry.bytes, kindBytes, RedactedDigestBuilder.pushBytes,
        RedactedDigestBuilder.pushU32, RedactedDigestBuilder.pushU8]
    rw [compiles, counts, size, Except.ok.injEq, Nat.add_zero, Nat.add_zero, eq_comm, and_iff_right ⟨counted, bounded⟩]
  | regularFile size digest =>
    have counts : entry.fileCount = 1 := by simp [fileCount, isDirectory, kind]
    have sized : entry.byteSize = size.toNat := by simp [byteSize, kind]
    have written : ((((state.digest.pushBytes (encode entry.relativePath)).pushU32 entry.unixMode).pushU8 1).pushU64 size).pushBytes
        (encode digest.asStr) = ⟨state.digest.bytes ++ entry.bytes⟩ := by
      simp [kind, ControlledBuildOutputTreeEntry.bytes, kindBytes, RedactedDigestBuilder.pushBytes,
        RedactedDigestBuilder.pushU32, RedactedDigestBuilder.pushU8, RedactedDigestBuilder.pushU64]
    simp only [compileEntry, kind, written, ← sized, bind_eq_ok, require_eq_ok, exists_unit, Except.ok.injEq]
    rw [counts, eq_comm, and_assoc, and_iff_right_of_imp (a := _ < 2 ^ 64) (by omega)]
    exact and_assoc.symm

theorem foldlM_compileEntry {state compiled : Compilation}
    (counted : state.regularFileCount < 2 ^ 32) (bounded : state.totalFileBytes ≤ maximumControlledBuildOutputBytes) :
    entries.foldlM compileEntry state = .ok compiled ↔ (state.regularFileCount + (entries.map fileCount).sum < 2 ^ 32 ∧
        state.totalFileBytes + (entries.map byteSize).sum ≤ maximumControlledBuildOutputBytes) ∧
      compiled = ⟨⟨state.digest.bytes ++ entries.flatMap ControlledBuildOutputTreeEntry.bytes⟩,
        state.regularFileCount + (entries.map fileCount).sum, state.totalFileBytes + (entries.map byteSize).sum⟩ := by
  induction entries generalizing state with
  | nil =>
    have unchanged : [].foldlM compileEntry state = .ok state := rfl
    simp only [unchanged, Except.ok.injEq, map_nil, sum_nil, flatMap_nil, Nat.add_zero, append_nil]
    rw [and_iff_right ⟨counted, bounded⟩, eq_comm]
  | cons entry entries ih =>
    simp only [foldlM_cons, bind_eq_ok, compileEntry_eq_ok counted bounded, map_cons, sum_cons, flatMap_cons]
    constructor
    · rintro ⟨next, ⟨⟨fewer, smaller⟩, rfl⟩, rest⟩
      obtain ⟨totals, rfl⟩ := (ih fewer smaller).mp rest
      simp only [Nat.add_assoc, append_assoc] at totals ⊢
      exact ⟨totals, trivial⟩
    · rintro ⟨⟨fewer, smaller⟩, rfl⟩
      refine ⟨_, ⟨⟨by omega, by omega⟩, rfl⟩, (ih (by simp only; omega) (by simp only; omega)).mpr ?_⟩
      simp only [Nat.add_assoc, append_assoc]
      exact ⟨⟨fewer, smaller⟩, trivial⟩

theorem sum_fileCount (entries : List ControlledBuildOutputTreeEntry) : (entries.map fileCount).sum = entries.countP (!·.isDirectory) := by
  induction entries with
  | nil => rfl
  | cons entry entries ih => cases kind : entry.isDirectory <;> simp [fileCount, kind, ih, Nat.add_comm]

/-- The bytes whose digest commits to the entries. -/
def commitmentBytes (entries : List ControlledBuildOutputTreeEntry) : Bytes :=
  ((RedactedDigestBuilder.new "controlled-build-output-tree/v1".toList).pushUsize entries.length).bytes ++
    (sortEntries entries).flatMap ControlledBuildOutputTreeEntry.bytes

variable {tree : ControlledBuildOutputTree}

@[ext] theorem ext {other : ControlledBuildOutputTree} (digest : tree.digest = other.digest)
    (entryCount : tree.entryCount = other.entryCount) (regularFileCount : tree.regularFileCount = other.regularFileCount)
    (totalFileBytes : tree.totalFileBytes = other.totalFileBytes) : tree = other := by
  cases tree
  cases other
  simp_all

theorem fromParts_eq_ok {digest : Digest} {entryCount regularFileCount totalFileBytes : Nat} :
    fromParts digest entryCount regularFileCount totalFileBytes = .ok tree ↔
      tree.digest = digest ∧ tree.entryCount = entryCount ∧ tree.regularFileCount = regularFileCount ∧ tree.totalFileBytes = totalFileBytes := by
  simp only [fromParts]
  split
  next checked =>
    rw [Except.ok.injEq]
    constructor
    · rintro rfl
      simp
    · rintro ⟨digests, entries, files, bytes⟩
      exact ext digests.symm entries.symm files.symm bytes.symm
  next refused =>
    simp only [reduceCtorEq, false_iff]
    rintro ⟨rfl, rfl, rfl, rfl⟩
    exact refused ⟨tree.nonempty, tree.entriesBounded, tree.hasRegularFile, tree.filesBounded, tree.bytesBounded⟩

/-- What a compilation computes, and for which entries. -/
theorem compile_eq_ok : compile entries = .ok tree ↔ CompleteTree entries ∧ tree.digest = Digest.sha256 (commitmentBytes entries) ∧
      tree.entryCount = entries.length ∧ tree.regularFileCount = entries.countP (!·.isDirectory) ∧
        tree.totalFileBytes = (entries.map byteSize).sum := by
  have sorted := pairwise_insertionSort
    (fun left right : ControlledBuildOutputTreeEntry => encode left.relativePath ≤ encode right.relativePath) entries
  have same := perm_sortEntries entries
  have sizes : ((sortEntries entries).map byteSize).sum = (entries.map byteSize).sum := (same.map _).sum_nat
  have files : ((sortEntries entries).map fileCount).sum = entries.countP (!·.isDirectory) := by
    rw [sum_fileCount, same.countP_eq]
  have distinct : hasAdjacentDuplicate (sortEntries entries) = false ↔
      entries.Pairwise fun entry other => entry.relativePath ≠ other.relativePath :=
    (hasAdjacentDuplicate_iff sorted).trans (same.pairwise_iff fun apart => apart.symm)
  have folded : ∀ compiled, (sortEntries entries).foldlM compileEntry
      ⟨(RedactedDigestBuilder.new "controlled-build-output-tree/v1".toList).pushUsize entries.length, 0, 0⟩ = .ok compiled ↔
        (entries.countP (!·.isDirectory) < 2 ^ 32 ∧ (entries.map byteSize).sum ≤ maximumControlledBuildOutputBytes) ∧
          compiled = ⟨⟨commitmentBytes entries⟩, entries.countP (!·.isDirectory), (entries.map byteSize).sum⟩ := by
    intro compiled
    refine (foldlM_compileEntry (by simp) (Nat.zero_le _)).trans ?_
    simp only [sizes, files, Nat.zero_add]
    rfl
  simp only [compile, bind_eq_ok, require_eq_ok, exists_unit, fromParts_eq_ok, distinct, hasCompleteDirectoryShape_iff,
    same.mem_iff, same.length_eq, folded]
  constructor
  · rintro ⟨⟨nonempty, bounded⟩, ⟨distinct, shape⟩, compiled, ⟨⟨few, small⟩, rfl⟩, -, digest, length, count, total⟩
    have regular : 0 < entries.countP (!·.isDirectory) := by
      have held := tree.hasRegularFile
      simp only at count
      omega
    refine ⟨⟨length_pos_iff.mpr nonempty, bounded, fun entry _ => entry.portable, distinct, shape, ?_, small⟩,
      digest, length, count, total⟩
    simpa [isDirectory] using countP_pos_iff.mp regular
  · rintro ⟨complete, digest, length, count, total⟩
    have bounded := complete.bounded
    have fewer : entries.countP (!·.isDirectory) ≤ entries.length := countP_le_length
    simp only [maximumControlledBuildOutputTreeEntries] at bounded
    exact ⟨⟨length_pos_iff.mp complete.nonempty, complete.bounded⟩, ⟨complete.distinct, complete.ancestors⟩, _,
      ⟨⟨by omega, complete.bytes⟩, rfl⟩, by omega, digest, length, count, total⟩

theorem compile_complete (complete : CompleteTree entries) : ∃ tree, compile entries = .ok tree := by
  have regular : entries.countP (!·.isDirectory) ≠ 0 := by
    obtain ⟨entry, member, kind⟩ := complete.regularFile
    exact (countP_pos_iff.mpr ⟨entry, member, by simpa [isDirectory] using kind⟩).ne'
  have nonempty := complete.nonempty
  exact ⟨⟨Digest.sha256 (commitmentBytes entries), entries.length, _, _, by omega, complete.bounded, regular, countP_le_length,
    complete.bytes⟩, compile_eq_ok.mpr ⟨complete, rfl, rfl, rfl, rfl⟩⟩

theorem commitmentBytes_perm
    (distinct : entries.Pairwise fun entry other => entry.relativePath ≠ other.relativePath) (same : entries.Perm others) :
    commitmentBytes entries = commitmentBytes others := by
  rw [commitmentBytes, commitmentBytes, sortEntries_perm distinct same, same.length_eq]

theorem compile_perm (same : entries.Perm others) (compiled : compile entries = .ok tree) : compile others = .ok tree := by
  obtain ⟨complete, digest, length, files, bytes⟩ := compile_eq_ok.mp compiled
  refine compile_eq_ok.mpr ⟨complete.perm same, ?_, ?_, ?_, ?_⟩
  · rw [digest, commitmentBytes_perm complete.distinct same]
  · rw [length, same.length_eq]
  · rw [files, same.countP_eq]
  · rw [bytes, (same.map byteSize).sum_nat]

/-- The committed bytes determine the entries up to their order. -/
theorem perm_of_commitmentBytes (bounded : entries.length ≤ maximumControlledBuildOutputTreeEntries)
    (alsoBounded : others.length ≤ maximumControlledBuildOutputTreeEntries)
    (same : commitmentBytes entries = commitmentBytes others) : entries.Perm others := by
  simp only [maximumControlledBuildOutputTreeEntries] at bounded alsoBounded
  simp only [commitmentBytes, RedactedDigestBuilder.pushUsize, append_assoc, append_cancel_left_eq] at same
  obtain ⟨lengths, written⟩ := SelfDelimiting.bigEndian 8 (by omega) (by omega) same
  have count : (sortEntries entries).length = (sortEntries others).length := by
    rw [(perm_sortEntries entries).length_eq, (perm_sortEntries others).length_eq]
    omega
  have followed : (sortEntries entries).flatMap ControlledBuildOutputTreeEntry.bytes ++ [] =
      (sortEntries others).flatMap ControlledBuildOutputTreeEntry.bytes ++ [] := by rw [written]
  obtain ⟨sorted, -⟩ := selfDelimiting_bytes.flatMap (fun _ _ => trivial) (fun _ _ => trivial) count followed
  exact (perm_sortEntries entries).symm.trans (sorted ▸ perm_sortEntries others)

end ControlledBuildOutputTree

/-- No regular file of a complete tree lies above another entry. -/
theorem CompleteTree.file_is_leaf (complete : CompleteTree entries)
    {file entry : ControlledBuildOutputTreeEntry} (isFile : file ∈ entries) (regular : file.kind ≠ .directory) (member : entry ∈ entries)
    (rest : Text) : entry.relativePath ≠ file.relativePath ++ '/' :: rest := by
  intro below
  obtain ⟨parent, listed, isDirectory, path⟩ := complete.ancestors entry member _ rest below
  have symmetric : Std.Symm fun entry other : ControlledBuildOutputTreeEntry => entry.relativePath ≠ other.relativePath :=
    ⟨fun _ _ apart same => apart same.symm⟩
  refine complete.distinct.forall listed isFile ?_ path
  rintro rfl
  exact regular isDirectory

open ControlledBuildOutputTree

/-- The commitment to an output tree exists exactly for complete trees, is the same for every order
of the entries, counts them exactly and determines them. -/
theorem output_commitment_is_canonical :
    (∀ path mode, (∃ entry, directory path mode = .ok entry) ↔ validPortableRelativePath path = true ∧ mode &&& ~~~0o777 = 0) ∧
    (∀ path size digest mode, (∃ entry, regularFile path size digest mode = .ok entry) ↔
      size.toNat ≤ maximumControlledBuildOutputBytes ∧ validPortableRelativePath path = true ∧ mode &&& ~~~0o777 = 0) ∧
    (∀ entries, (∃ tree, compile entries = .ok tree) ↔ CompleteTree entries) ∧
    (∀ entries, CompleteTree entries → ∀ file ∈ entries, file.kind ≠ .directory →
      ∀ entry ∈ entries, ∀ rest, entry.relativePath ≠ file.relativePath ++ '/' :: rest) ∧
    (∀ entries others, entries.Perm others → compile entries = compile others) ∧ (∀ entries tree, compile entries = .ok tree →
      tree.entryCount = entries.length ∧ tree.regularFileCount = entries.countP (!·.isDirectory) ∧
        tree.entryCount - tree.regularFileCount = entries.countP (·.isDirectory) ∧ tree.totalFileBytes = (entries.map byteSize).sum) ∧
    (∀ entries others tree other, compile entries = .ok tree → compile others = .ok other → tree.digest = other.digest →
      Separated (commitmentBytes entries) (commitmentBytes others) → entries.Perm others) := by
  have succeeds : ∀ entries, (∃ tree, compile entries = .ok tree) ↔ CompleteTree entries := fun entries =>
    ⟨fun ⟨_, compiled⟩ => (compile_eq_ok.mp compiled).1, compile_complete⟩
  refine ⟨fun _ _ => directory_iff, fun _ _ _ _ => regularFile_iff, succeeds,
    fun _ complete _ isFile regular _ member rest => complete.file_is_leaf isFile regular member rest, ?_, ?_, ?_⟩
  · intro entries others same
    cases compiled : compile entries with
    | ok tree => exact (compile_perm same compiled).symm
    | error fault =>
      cases alsoCompiled : compile others with
      | ok tree => rw [compile_perm same.symm alsoCompiled] at compiled; cases compiled
      | error other => rfl
  · intro entries tree compiled
    obtain ⟨-, -, length, files, bytes⟩ := compile_eq_ok.mp compiled
    have split : entries.length = entries.countP (·.isDirectory) + entries.countP (!·.isDirectory) := by
      simpa using length_eq_countP_add_countP (·.isDirectory) (l := entries)
    exact ⟨length, files, by omega, bytes⟩
  · intro entries others tree other compiled alsoCompiled digests separated
    obtain ⟨complete, digest, -⟩ := compile_eq_ok.mp compiled
    obtain ⟨alsoComplete, otherDigest, -⟩ := compile_eq_ok.mp alsoCompiled
    exact perm_of_commitmentBytes complete.bounded alsoComplete.bounded (separated ((digest.symm.trans digests).trans otherDigest))

def binDirectory : ControlledBuildOutputTreeEntry := ⟨"bin".toList, .directory, 0o755, rfl, by decide⟩

def binTool : ControlledBuildOutputTreeEntry :=
  ⟨"bin/tool".toList, .regularFile 4 (Digest.sha256 (encode "tool".toList)), 0o755, rfl, by decide⟩

theorem completeTree_bin : CompleteTree [binTool, binDirectory] where
  nonempty := by decide
  bounded := by decide
  portable entry _ := entry.portable
  distinct := by decide
  ancestors := hasCompleteDirectoryShape_iff.mp rfl
  regularFile := ⟨binTool, mem_cons_self, nofun⟩
  bytes := by decide

theorem output_commitment_is_canonical_bin : (∃ tree, compile [binTool, binDirectory] = .ok tree ∧ compile [binDirectory, binTool] = .ok tree ∧
      tree.entryCount = 2 ∧ tree.regularFileCount = 1 ∧ tree.totalFileBytes = 4) ∧ [binTool, binDirectory].Perm [binDirectory, binTool] := by
  obtain ⟨-, -, succeeds, -, orderless, counts, determines⟩ := output_commitment_is_canonical
  obtain ⟨tree, compiled⟩ := (succeeds _).mpr completeTree_bin
  have swapped : compile [binDirectory, binTool] = .ok tree := (orderless _ _ (.swap _ _ _)).symm.trans compiled
  obtain ⟨entries, files, -, bytes⟩ := counts _ tree compiled
  refine ⟨⟨tree, compiled, swapped, entries, ?_, ?_⟩, determines _ _ tree tree compiled swapped rfl fun _ => ?_⟩
  · rw [files]
    decide
  · rw [bytes]
    decide
  · exact commitmentBytes_perm completeTree_bin.distinct (.swap _ _ _)

end Retonr.RuntimeIsolation
