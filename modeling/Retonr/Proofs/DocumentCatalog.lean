import Retonr.Proofs.CatalogPaths

/-! Discovery is exact: it fails only for want of resources, and reports every entry of every directory
that it walks once. -/

namespace Retonr.Catalog
open Text List

variable {Observation : Type}

instance : Std.TransCmp (@compareDocuments Observation) := by
  unfold compareDocuments
  infer_instance

instance : Std.TransCmp compareSkipped := by
  unfold compareSkipped
  infer_instance

theorem compareDocuments_eq {first second : CatalogEntry Observation} :
    compareDocuments first second = .eq ↔ first.relativePath.asStr = second.relativePath.asStr := by
  unfold compareDocuments compareOn
  rw [Std.LawfulEqOrd.compare_eq_iff_eq]
  exact ⟨fun same => encode_injective same, fun same => congrArg encode same⟩

theorem eq_of_compareSkipped {first second : CatalogSkippedEntry} (same : compareSkipped first second = .eq) : first = second := by
  simp only [compareSkipped, compareLex, compareOn, Ordering.then_eq_eq, Std.LawfulEqOrd.compare_eq_iff_eq] at same
  obtain ⟨paths, reasons⟩ := same
  obtain ⟨path, reason⟩ := first
  obtain ⟨otherPath, otherReason⟩ := second
  have paths : path = otherPath := Option.map_injective (fun _ _ => encode_injective) paths
  have reasons : reason = otherReason := by cases reason <;> cases otherReason <;> first | rfl | cases reasons
  rw [paths, reasons]

/-- A directory tree as a file system has it, with documents that can be read and are taken in. -/
structure Orderly (walker : Walker Observation) (root : List Entry) : Prop where
  distinct : ∀ {path entries}, Walked walker.toScope root path entries → (entries.map Entry.name).Nodup
  small : ∀ {path entries raw bytes name}, Walked walker.toScope root path entries → .file raw bytes ∈ entries → Visible raw name →
    bytes.length ≤ maxCandidateCheckBytes
  takenIn : ∀ {path entries raw bytes name}, Walked walker.toScope root path entries → .file raw bytes ∈ entries → Visible raw name →
    ∃ observation, walker.inspectBytes (relativePath (path ++ [name])) bytes = .ok observation

section Discovery

variable {walker : Walker Observation} {root : List Entry} {rootName : Bytes}

/-- The frames of all directories below a root that are walked. -/
def frames (scope : Scope) (root : List Entry) : List Frame := scope.reach (frameOf [] root)

variable {scope : Scope}

theorem mem_documents {found : Text} {bytes : Bytes} : (found, bytes) ∈ documents (frames scope root) ↔
    ∃ path entries raw name, Walked scope root path entries ∧ .file raw bytes ∈ entries ∧ Visible raw name ∧
      found = relativePath (path ++ [name]) := by
  simp only [documents, mem_flatMap, mem_filterMap, documentOf_eq_some, frames, mem_reach_root]
  constructor
  · rintro ⟨_, ⟨path, entries, walked, rfl⟩, _, member, raw, name, rfl, visible, rfl⟩
    exact ⟨path, entries, raw, name, walked, member, visible, (relativePath_append path name).symm⟩
  · rintro ⟨path, entries, raw, name, walked, member, visible, rfl⟩
    exact ⟨_, ⟨path, entries, walked, rfl⟩, _, member, raw, name, rfl, visible, relativePath_append path name⟩

theorem cataloguedAs_eq_some {found : Text} {bytes : Bytes} {entry : CatalogEntry Observation} (listed : (found, bytes) ∈ documents (frames walker.toScope root)) :
    walker.cataloguedAs (found, bytes) = some entry ↔ entry.relativePath.asStr = found ∧ walker.inspectBytes found bytes = .ok entry.observation := by
  obtain ⟨path, entries, raw, name, walked, member, visible, rfl⟩ := mem_documents.mp listed
  obtain ⟨relative, built, same⟩ := new_relativePath (append_ne_nil_of_right_ne_nil path (cons_ne_nil name [])) (components_append walked.components visible)
  unfold Walker.cataloguedAs
  simp only [built]
  constructor
  · intro catalogued
    split at catalogued
    next found observation known given =>
      cases known
      cases catalogued
      exact ⟨same, given⟩
    next => cases catalogued
  · rintro ⟨named, given⟩
    have path : relative = entry.relativePath := RelativeDocumentPath.ext (same.trans named.symm)
    rw [given, path]

theorem mem_catalogued {entry : CatalogEntry Observation} : entry ∈ (documents (frames walker.toScope root)).filterMap walker.cataloguedAs ↔
    ∃ bytes, (entry.relativePath.asStr, bytes) ∈ documents (frames walker.toScope root) ∧
      walker.inspectBytes entry.relativePath.asStr bytes = .ok entry.observation := by
  rw [mem_filterMap]
  constructor
  · rintro ⟨⟨found, bytes⟩, listed, catalogued⟩
    obtain ⟨rfl, given⟩ := (cataloguedAs_eq_some listed).mp catalogued
    exact ⟨bytes, listed, given⟩
  · rintro ⟨bytes, listed, given⟩
    exact ⟨_, listed, (cataloguedAs_eq_some listed).mpr ⟨rfl, given⟩⟩

variable (orderly : Orderly walker root)

include orderly

theorem distinct_frames : ∀ frame ∈ frames walker.toScope root, (frame.entries.map Entry.name).Nodup := by
  intro frame member
  obtain ⟨path, entries, walked, rfl⟩ := mem_reach_root.mp member
  exact orderly.distinct walked

theorem nodup_frames : ((frames walker.toScope root).map Frame.relative).Nodup :=
  @nodup_subframes _ _ _ [] nofun rfl (distinct_frames orderly)

theorem distinct_documents : ((documents (frames walker.toScope root)).map Prod.fst).Nodup := by
  refine nodup_documents (nodup_frames orderly) ?_ (distinct_frames orderly)
  intro frame member
  obtain ⟨path, entries, walked, rfl⟩ := mem_reach_root.mp member
  exact ⟨path, walked.components, rfl⟩

theorem readable_documents : ∀ document ∈ documents (frames walker.toScope root), walker.Readable document := by
  rintro ⟨found, bytes⟩ listed
  obtain ⟨path, entries, raw, name, walked, member, visible, rfl⟩ := mem_documents.mp listed
  obtain ⟨observation, given⟩ := orderly.takenIn walked member visible
  obtain ⟨relative, -, same⟩ := new_relativePath (append_ne_nil_of_right_ne_nil path (cons_ne_nil name []))
    (components_append walked.components visible)
  exact ⟨orderly.small walked member visible, ⟨relative, observation⟩, (cataloguedAs_eq_some listed).mpr ⟨same, given⟩⟩

theorem distinct_catalogued : ((documents (frames walker.toScope root)).filterMap walker.cataloguedAs).Pairwise fun first second =>
    compareDocuments first second ≠ .eq := by
  have apart := pairwise_map.mp (distinct_documents orderly)
  rw [pairwise_filterMap]
  refine apart.imp_of_mem ?_
  rintro ⟨found, bytes⟩ ⟨other, otherBytes⟩ listed alsoListed different first catalogued second alsoCatalogued same
  obtain ⟨rfl, -⟩ := (cataloguedAs_eq_some listed).mp catalogued
  obtain ⟨rfl, -⟩ := (cataloguedAs_eq_some alsoListed).mp alsoCatalogued
  exact different (compareDocuments_eq.mp same)

theorem discover_eq (ceilings : walker.limits.entries ≤ maxDocumentCatalogEntries ∧ walker.limits.depth ≤ maxDocumentCatalogDepth ∧
    walker.limits.bytes ≤ maxDocumentCatalogBytes) : discover walker false (.directory rootName root) =
      if entryCount (frames walker.toScope root) ≤ walker.limits.entries ∧ sizeOf (documents (frames walker.toScope root)) ≤ walker.limits.bytes then
        .ok ⟨sortBy compareDocuments ((documents (frames walker.toScope root)).filterMap walker.cataloguedAs),
          sortBy compareSkipped (walker.skippedEntries (frames walker.toScope root))⟩ else .error .resourceLimitExceeded := by
  obtain ⟨entries, depth, bytes⟩ := ceilings
  unfold maxDocumentCatalogEntries at entries
  unfold maxDocumentCatalogDepth at depth
  unfold maxDocumentCatalogBytes at bytes
  have whole : walker.work [frameOf [] root] = frames walker.toScope root := by simp [Scope.work, frames]
  have limit : usizeLimit = 2 ^ 64 := rfl
  have walked := walker.walkCancellable_spec (by omega) (by omega) (by omega) ⟨[frameOf [] root], [], [], 0, 0⟩
    (fun frame member => by rw [mem_singleton.mp member]; exact Nat.zero_le _) (by rw [whole]; exact readable_documents orderly)
    (Nat.zero_le _) (Nat.zero_le _)
  simp only [whole, Nat.zero_add, nil_append] at walked
  have allowed : walker.limits.entries ≤ maxDocumentCatalogEntries ∧ walker.limits.depth ≤ maxDocumentCatalogDepth ∧
      walker.limits.bytes ≤ maxDocumentCatalogBytes := ⟨entries, depth, bytes⟩
  simp only [discover, Except.require, if_true, if_pos allowed, Except.ok_bind]
  split at walked
  next fits =>
    obtain ⟨found, skipped, walked, foundAll, skippedAll⟩ := walked
    rw [if_pos fits]
    refine (congrArg (· >>= _) walked).trans ?_
    have documentsSorted : sortBy compareDocuments found =
        sortBy compareDocuments ((documents (frames walker.toScope root)).filterMap walker.cataloguedAs) := by
      refine sortBy_eq_of_perm foundAll fun first member second alsoMember same => ?_
      by_contra different
      have symmetric : Std.Symm fun first second : CatalogEntry Observation => compareDocuments first second ≠ .eq :=
        ⟨fun _ _ apart same => apart (Std.OrientedCmp.eq_comm.mp same)⟩
      exact (distinct_catalogued orderly).forall (foundAll.mem_iff.mp member) (foundAll.mem_iff.mp alsoMember) different same
    have skippedSorted : sortBy compareSkipped skipped = sortBy compareSkipped (walker.skippedEntries (frames walker.toScope root)) :=
      sortBy_eq_of_perm skippedAll fun _ _ _ _ same => eq_of_compareSkipped same
    rw [Except.ok_bind, documentsSorted, skippedSorted]
  next full =>
    rw [if_neg full]
    exact congrArg (· >>= _) walked

omit orderly

variable {path : List Text}

/-- The directories that are walked, each with the components of its path. -/
def directories (scope : Scope) (root : List Entry) : List (List Text × List Entry) :=
  (frames scope root).map fun frame => (pathOf frame.relative, frame.entries)

variable {entries : List Entry}

theorem mem_directories : (path, entries) ∈ directories scope root ↔ Walked scope root path entries := by
  rw [directories, mem_map]
  constructor
  · rintro ⟨frame, member, same⟩
    obtain ⟨found, inner, walked, rfl⟩ := mem_reach_root.mp member
    obtain ⟨rfl, rfl⟩ := Prod.mk.inj same
    have path : pathOf (frameOf found inner).relative = found := pathOf_relativePath walked.components
    rw [path]
    exact walked
  · intro walked
    exact ⟨frameOf path entries, mem_reach_root.mpr ⟨path, entries, walked, rfl⟩, Prod.ext (pathOf_relativePath walked.components) rfl⟩

def isVisible (raw : Bytes) : Bool :=
  match toStr raw with
  | some name => portableComponent name && name.head? != some '.' && !isIgnored name
  | none => false

theorem isVisible_iff {raw : Bytes} : isVisible raw = true ↔ ∃ name, Visible raw name := by
  unfold isVisible
  constructor
  · intro holds
    split at holds
    next name decoded =>
      simp only [Bool.and_eq_true, bne_iff_ne, Bool.not_eq_true'] at holds
      exact ⟨name, decoded, holds.1.1, holds.1.2, holds.2⟩
    next => cases holds
  · rintro ⟨name, visible⟩
    simp [visible.decoded, visible.portable, visible.shown, visible.kept]

/-- The bytes an entry adds to the catalog. -/
def documentBytes : Entry → Nat
  | .file raw bytes => if isVisible raw then bytes.length else 0
  | _ => 0

theorem sizeOf_documentOf (frame : Frame) (entry : Entry) : sizeOf (documentOf frame entry).toList = documentBytes entry := by
  cases document : documentOf frame entry with
  | some pair =>
    obtain ⟨found, bytes⟩ := pair
    obtain ⟨raw, name, rfl, visible, rfl⟩ := documentOf_eq_some.mp document
    simp [sizeOf, documentBytes, isVisible_iff.mpr ⟨name, visible⟩]
  | none =>
    cases entry with
    | file raw bytes =>
      have hidden : isVisible raw ≠ true := by
        intro seen
        obtain ⟨name, visible⟩ := isVisible_iff.mp seen
        rw [documentOf_eq_some.mpr ⟨raw, name, rfl, visible, rfl⟩] at document
        cases document
      simp [sizeOf, documentBytes, hidden]
    | directory | symlink | special | unreadable => rfl

theorem sizeOf_filterMap (frame : Frame) (entries : List Entry) :
    sizeOf (entries.filterMap (documentOf frame)) = (entries.map documentBytes).sum := by
  induction entries with
  | nil => rfl
  | cons entry entries ih => rw [filterMap_cons_toList, sizeOf_append, sizeOf_documentOf, ih, map_cons, sum_cons]

theorem sizeOf_documents (frames : List Frame) : sizeOf (documents frames) = (frames.map fun frame => (frame.entries.map documentBytes).sum).sum := by
  induction frames with
  | nil => rfl
  | cons frame frames ih => rw [documents, flatMap_cons, sizeOf_append, sizeOf_filterMap, map_cons, sum_cons, ← ih, documents]

/-- The record of an entry that is neither a document nor walked. -/
def skipRecord (scope : Scope) (path : List Text) (entry : Entry) : Option CatalogSkippedEntry := scope.skippedOf (frameOf path []) entry

def IsDocument : Entry → Prop
  | .file raw _ => ∃ name, Visible raw name
  | _ => False

def IsWalked (scope : Scope) (root : List Entry) (path : List Text) : Entry → Prop
  | .directory raw inner => ∃ name, Visible raw name ∧ Walked scope root (path ++ [name]) inner
  | _ => False

/-- An entry of a walked directory is a document, or walked itself, or it leaves a record. -/
theorem skipRecord_isSome_iff {entry : Entry} (walked : Walked scope root path entries)
    (member : entry ∈ entries) : (skipRecord scope path entry).isSome = true ↔ ¬IsDocument entry ∧ ¬IsWalked scope root path entry := by
  unfold skipRecord Scope.skippedOf
  by_cases seen : ∃ name, Visible entry.name name
  · obtain ⟨name, visible⟩ := seen
    rw [classifyEntry_visible entry visible]
    cases entry with
    | file raw bytes => simpa [classOf, IsDocument, IsWalked] using ⟨name, visible⟩
    | directory raw inner =>
      have allowed : IsWalked scope root path (.directory raw inner) ↔ scope.recursive = true ∧ path.length + 1 ≤ scope.limits.depth := by
        constructor
        · rintro ⟨name, -, below⟩
          generalize whole : path ++ [name] = extended at below
          cases below with
          | root => simp at whole
          | child recursive parent member visible within =>
            have lengths := congrArg List.length whole
            simp only [length_append, length_singleton] at lengths
            exact ⟨recursive, by omega⟩
        · rintro ⟨recursive, within⟩
          exact ⟨name, visible, .child recursive walked member visible within⟩
      have depth : (frameOf path []).depth = path.length := rfl
      rw [allowed]
      simp only [classOf, IsDocument, not_false_eq_true, true_and, depth]
      cases scope.recursive with
      | false => simp
      | true => by_cases deep : scope.limits.depth ≤ path.length <;> simp [deep]
    | symlink | special | unreadable => simp [classOf, IsDocument, IsWalked]
  · obtain ⟨record, skipped⟩ := classifyEntry_invisible (not_exists.mp seen) (frameOf path []).relative
    rw [skipped]
    cases entry with
    | file raw bytes => simpa [IsDocument, IsWalked, Entry.name] using seen
    | directory raw inner =>
      simp only [Option.isSome_some, IsDocument, IsWalked, not_false_eq_true, true_and, true_iff]
      rintro ⟨name, visible, _⟩
      exact seen ⟨name, visible⟩
    | symlink | special | unreadable => simp [IsDocument, IsWalked]

theorem skippedEntries_frames : scope.skippedEntries (frames scope root) =
    (directories scope root).flatMap fun directory => directory.2.filterMap (skipRecord scope directory.1) := by
  rw [directories, flatMap_map, Scope.skippedEntries]
  apply flatMap_congr
  intro frame member
  obtain ⟨path, entries, walked, rfl⟩ := mem_reach_root.mp member
  have same : pathOf (frameOf path entries).relative = path := pathOf_relativePath walked.components
  simp only [same]
  rfl

theorem nodup_directories (orderly : Orderly walker root) : ((directories walker.toScope root).map Prod.fst).Nodup := by
  rw [directories, map_map, List.Nodup, pairwise_map]
  refine (pairwise_map.mp (nodup_frames orderly)).imp_of_mem ?_
  intro first second member alsoMember apart same
  obtain ⟨path, entries, walked, rfl⟩ := mem_reach_root.mp member
  obtain ⟨otherPath, others, otherWalked, rfl⟩ := mem_reach_root.mp alsoMember
  have paths : path = otherPath := by
    rw [← pathOf_relativePath walked.components, ← pathOf_relativePath otherWalked.components]
    exact same
  exact apart (congrArg relativePath paths)

/-- Another order of the listings gives the same result. -/
theorem discover_listing {other : Walker Observation} (orderly : Orderly walker root)
    (ceilings : walker.limits.entries ≤ maxDocumentCatalogEntries ∧ walker.limits.depth ≤ maxDocumentCatalogDepth ∧
      walker.limits.bytes ≤ maxDocumentCatalogBytes) (scope : other.toScope = walker.toScope) (inspect : other.inspectBytes = walker.inspectBytes) :
    discover other false (.directory rootName root) = discover walker false (.directory rootName root) := by
  obtain ⟨here, listing, inspectBytes, listed⟩ := walker
  obtain ⟨there, otherListing, otherInspect, otherListed⟩ := other
  dsimp only at scope inspect
  subst scope inspect
  have alsoOrderly : Orderly ⟨there, otherListing, otherInspect, otherListed⟩ root := ⟨orderly.distinct, orderly.small, orderly.takenIn⟩
  rw [discover_eq orderly ceilings, discover_eq alsoOrderly ceilings]
  rfl

/-- Discovery of an orderly tree is exact, whatever order its directories list their entries in. -/
theorem discover_is_exact (ceilings : walker.limits.entries ≤ maxDocumentCatalogEntries ∧ walker.limits.depth ≤ maxDocumentCatalogDepth ∧
    walker.limits.bytes ≤ maxDocumentCatalogBytes) (orderly : Orderly walker root) :
    (∀ other : Walker Observation, other.toScope = walker.toScope → other.inspectBytes = walker.inspectBytes →
      discover other false (.directory rootName root) = discover walker false (.directory rootName root)) ∧
    ((directories walker.toScope root).map Prod.fst).Nodup ∧
    (∀ path entries, (path, entries) ∈ directories walker.toScope root ↔ Walked walker.toScope root path entries) ∧
    ((∃ catalog, discover walker false (.directory rootName root) = .ok catalog) ↔
      ((directories walker.toScope root).map fun directory => directory.2.length).sum ≤ walker.limits.entries ∧
      ((directories walker.toScope root).map fun directory => (directory.2.map documentBytes).sum).sum ≤ walker.limits.bytes) ∧
    ∀ catalog, discover walker false (.directory rootName root) = .ok catalog →
      catalog.documents.Pairwise (fun first second => compare (encode first.relativePath.asStr) (encode second.relativePath.asStr) = .lt) ∧
      (∀ document, document ∈ catalog.documents ↔ ∃ path entries raw bytes name, Walked walker.toScope root path entries ∧
        .file raw bytes ∈ entries ∧ Visible raw name ∧ document.relativePath.asStr = relativePath (path ++ [name]) ∧
          walker.inspectBytes (relativePath (path ++ [name])) bytes = .ok document.observation) ∧
      catalog.skipped.Perm ((directories walker.toScope root).flatMap fun directory =>
        directory.2.filterMap (skipRecord walker.toScope directory.1)) ∧
      ∀ path entries entry, Walked walker.toScope root path entries → entry ∈ entries →
        ((skipRecord walker.toScope path entry).isSome = true ↔ ¬IsDocument entry ∧ ¬IsWalked walker.toScope root path entry) := by
  have entries : ((directories walker.toScope root).map fun directory => directory.2.length).sum = entryCount (frames walker.toScope root) := by
    rw [directories, map_map]
    rfl
  have bytes : ((directories walker.toScope root).map fun directory => (directory.2.map documentBytes).sum).sum =
      sizeOf (documents (frames walker.toScope root)) := by
    rw [sizeOf_documents, directories, map_map]
    rfl
  rw [entries, bytes, discover_eq orderly ceilings]
  refine ⟨fun other scope inspect => ?_, nodup_directories orderly, fun path entries => mem_directories, ?_, fun catalog found => ?_⟩
  · rw [discover_listing orderly ceilings scope inspect, discover_eq orderly ceilings]
  · split <;> simp_all
  · split at found
    next =>
      cases found
      have strict : (sortBy compareDocuments ((documents (frames walker.toScope root)).filterMap walker.cataloguedAs)).Pairwise
          fun first second => compareDocuments first second = .lt := strict_sortBy (distinct_catalogued orderly)
      refine ⟨strict, fun document => ?_, ?_, fun path entries entry walked member =>
        skipRecord_isSome_iff walked member⟩
      · simp only [mem_sortBy, mem_catalogued, mem_documents]
        constructor
        · rintro ⟨bytes, ⟨path, entries, raw, name, walked, member, visible, named⟩, given⟩
          exact ⟨path, entries, raw, bytes, name, walked, member, visible, named, named ▸ given⟩
        · rintro ⟨path, entries, raw, bytes, name, walked, member, visible, named, given⟩
          exact ⟨bytes, ⟨path, entries, raw, name, walked, member, visible, named⟩, named ▸ given⟩
      · rw [← skippedEntries_frames]
        exact sortBy_perm
    next => cases found

/-- A document beside a hidden entry and a directory with another document. -/
def sampleRoot : List Entry := [.file (encode ['b']) [104, 105], .symlink (encode ['.', 'x']), .directory (encode ['a']) [.file (encode ['c']) []]]

def sampleWalker : Walker Unit := ⟨⟨true, ⟨8, 2, 64⟩⟩, fun _ entries => entries.reverse, fun _ _ => .ok (), fun _ entries => entries.reverse_perm⟩

theorem walked_sample (walked : Walked sampleWalker.toScope sampleRoot path entries) :
    entries = sampleRoot ∨ entries = [.file (encode ['c']) []] := by
  induction walked with
  | root => exact .inl rfl
  | child _ _ member _ _ ih =>
    rcases ih with rfl | rfl
    · simp only [sampleRoot, mem_cons, reduceCtorEq, Entry.directory.injEq, not_mem_nil, or_false, false_or] at member
      exact .inr member.2
    · simp at member

theorem orderly_sample : Orderly sampleWalker sampleRoot where
  distinct walked := by
    rcases walked_sample walked with rfl | rfl <;> decide
  small walked member _ := by
    rcases walked_sample walked with rfl | rfl
    · simp only [sampleRoot, mem_cons, reduceCtorEq, Entry.file.injEq, not_mem_nil, or_false] at member
      rw [member.2]
      decide
    · simp only [mem_singleton, Entry.file.injEq] at member
      rw [member.2]
      decide
  takenIn _ _ _ := ⟨(), rfl⟩

theorem discover_is_exact_sample : ∃ catalog, discover sampleWalker false (.directory [] sampleRoot) = .ok catalog := by
  refine (discover_is_exact (by decide) orderly_sample).2.2.2.1.mpr ?_
  decide +kernel

end Discovery

end Retonr.Catalog
