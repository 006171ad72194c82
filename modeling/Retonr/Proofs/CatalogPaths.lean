import Retonr.Proofs.CatalogWalk

/-! The directories of a walk, as a reader would name them by their paths. -/

namespace Retonr.Catalog
open Text List

/-! ### Names and paths -/

/-- A name that is neither malformed, nor hidden, nor ignored. -/
structure Visible (raw : Bytes) (name : Text) : Prop where
  decoded : toStr raw = some name
  portable : portableComponent name = true
  shown : name.head? ≠ some '.'
  kept : isIgnored name = false

variable {raw : Bytes} {name : Text}

theorem toStr_eq_some : toStr raw = some name ↔ raw = encode name := by
  unfold toStr
  constructor
  · intro found
    cases read : decode raw with
    | error => simp [read, Except.toOption] at found
    | ok value =>
      simp only [read, Except.toOption, Option.some.injEq] at found
      rw [← found, encode_of_decode read]
  · rintro rfl
    rw [decode_encode]
    rfl

theorem Visible.unique {other : Bytes} (first : Visible raw name) (second : Visible other name) : raw = other := by
  rw [toStr_eq_some.mp first.decoded, toStr_eq_some.mp second.decoded]

def relativePath (path : List Text) : Text := path.foldl joinRelative []

/-- A component as paths are made of. -/
def Component (name : Text) : Prop := name ≠ [] ∧ name ≠ ['.'] ∧ name ≠ ['.', '.'] ∧ '/' ∉ name ∧ '\\' ∉ name ∧ '\x00' ∉ name

theorem Visible.component (visible : Visible raw name) : Component name := by
  have portable := visible.portable
  simp only [portableComponent, Bool.and_eq_true, Bool.not_eq_true', isEmpty_eq_false_iff, bne_iff_ne, contains_eq_mem,
    decide_eq_false_iff_not] at portable
  obtain ⟨⟨⟨⟨⟨filled, dot⟩, dots⟩, slash⟩, backslash⟩, zero⟩ := portable
  exact ⟨filled, dot, dots, slash, backslash, zero⟩

variable {path : List Text}

theorem components_append (components : ∀ component ∈ path, Component component)
    (visible : Visible raw name) : ∀ component ∈ path ++ [name], Component component := by
  intro component inside
  rcases mem_append.mp inside with above | last
  · exact components component above
  · exact mem_singleton.mp last ▸ visible.component

/-- What stands before the next component. -/
def lead (parent : Text) : Text := if parent.isEmpty then [] else parent ++ ['/']

theorem joinRelative_eq (parent name : Text) : joinRelative parent name = lead parent ++ name := by
  unfold joinRelative lead
  split <;> simp

variable {parent : Text}

theorem foldl_joinRelative (components : ∀ component ∈ name :: path, Component component) :
    (name :: path).foldl joinRelative parent = lead parent ++ ['/'].intercalate (name :: path) := by
  induction path generalizing name parent with
  | nil => simp [joinRelative_eq, List.intercalate]
  | cons second path ih =>
    obtain ⟨first, others⟩ := forall_mem_cons.mp components
    have filled : (joinRelative parent name).isEmpty = false := by
      rw [joinRelative_eq]
      simp [first.1]
    rw [foldl_cons, ih others, lead, filled, joinRelative_eq, List.intercalate, List.intercalate, intersperse_cons_cons]
    simp

/-- The components of a relative path. -/
def pathOf (relative : Text) : List Text := if relative = [] then [] else relative.splitOn '/'

theorem splitOn_relativePath (filled : path ≠ []) (components : ∀ component ∈ path, Component component) :
    (relativePath path).splitOn '/' = path := by
  obtain ⟨name, rest, rfl⟩ := exists_cons_of_ne_nil filled
  have shape : relativePath (name :: rest) = ['/'].intercalate (name :: rest) := foldl_joinRelative components
  rw [shape]
  exact splitOn_intercalate _ (fun component member => (components component member).2.2.2.1) filled

theorem pathOf_relativePath (components : ∀ component ∈ path, Component component) : pathOf (relativePath path) = path := by
  unfold pathOf
  split
  next empty =>
    cases path with
    | nil => rfl
    | cons name rest =>
      have split := splitOn_relativePath (cons_ne_nil name rest) components
      rw [empty] at split
      cases split
      exact absurd rfl (components [] mem_cons_self).1
  next filled =>
    refine splitOn_relativePath ?_ components
    rintro rfl
    exact filled rfl

theorem relativePath_injective {other : List Text} (first : ∀ component ∈ path, Component component)
    (second : ∀ component ∈ other, Component component) (same : relativePath path = relativePath other) : path = other := by
  rw [← pathOf_relativePath first, same, pathOf_relativePath second]

@[ext] theorem RelativeDocumentPath.ext {first second : RelativeDocumentPath} (same : first.asStr = second.asStr) : first = second := by
  cases first
  cases second
  simpa using same

theorem mem_intercalate {separator char : Char} (member : char ∈ [separator].intercalate path) :
    char = separator ∨ ∃ component ∈ path, char ∈ component := by
  induction path with
  | nil => simp [List.intercalate] at member
  | cons name path ih =>
    cases path with
    | nil => exact .inr ⟨name, mem_singleton_self name, by simpa [List.intercalate] using member⟩
    | cons second path =>
      rw [List.intercalate, intersperse_cons_cons, flatten_cons, flatten_cons] at member
      rcases mem_append.mp member with first | later
      · exact .inr ⟨name, mem_cons_self, first⟩
      rcases mem_append.mp later with between | others
      · exact .inl (mem_singleton.mp between)
      · rcases ih others with found | ⟨component, inside, found⟩
        · exact .inl found
        · exact .inr ⟨component, mem_cons_of_mem _ inside, found⟩

theorem new_relativePath (filled : path ≠ []) (components : ∀ component ∈ path, Component component) :
    ∃ found, RelativeDocumentPath.new (relativePath path) = some found ∧ found.asStr = relativePath path := by
  have absent : ∀ {char : Char}, char ≠ '/' → (∀ component ∈ path, char ∉ component) → char ∉ relativePath path := by
    intro char other outside member
    obtain ⟨name, rest, rfl⟩ := exists_cons_of_ne_nil filled
    have shape : relativePath (name :: rest) = ['/'].intercalate (name :: rest) := foldl_joinRelative components
    rw [shape] at member
    rcases mem_intercalate member with separator | ⟨component, inside, found⟩
    · exact other separator
    · exact outside component inside found
  have checked : ('\\' ∉ relativePath path ∧ '\x00' ∉ relativePath path) ∧
      ∀ component ∈ (relativePath path).splitOn '/', component ≠ [] ∧ component ≠ ['.'] ∧ component ≠ ['.', '.'] := by
    refine ⟨⟨absent (by decide) fun component member => ?_, absent (by decide) fun component member => ?_⟩, fun component member => ?_⟩
    · exact (components component member).2.2.2.2.1
    · exact (components component member).2.2.2.2.2
    · rw [splitOn_relativePath filled components] at member
      obtain ⟨filled, dot, dots, -⟩ := components component member
      exact ⟨filled, dot, dots⟩
  exact ⟨⟨relativePath path, checked.1, checked.2⟩, dif_pos checked, rfl⟩

/-! ### Walked directories -/

/-- The directories that discovery is to walk: the root, and with recursion every directory within the
depth that is reached through visible names only. -/
inductive Walked (scope : Scope) (root : List Entry) : List Text → List Entry → Prop where
  | root : Walked scope root [] root
  | child {path : List Text} {entries inner : List Entry} {raw : Bytes} {name : Text} (recursive : scope.recursive = true)
      (parent : Walked scope root path entries) (member : .directory raw inner ∈ entries) (visible : Visible raw name)
      (within : path.length + 1 ≤ scope.limits.depth) : Walked scope root (path ++ [name]) inner

namespace Walked

variable {scope : Scope} {root entries : List Entry} {path : List Text}

theorem components (walked : Walked scope root path entries) : ∀ component ∈ path, Component component := by
  induction walked with
  | root => exact nofun
  | child recursive parent member visible within ih => exact components_append ih visible

end Walked

theorem relativePath_append (path : List Text) (name : Text) : relativePath (path ++ [name]) = joinRelative (relativePath path) name := by
  simp [relativePath]

/-- What a visible entry is classified by: its kind alone. -/
def classOf (relativePath : Text) : Entry → Class
  | .unreadable _ => .skipped ⟨some relativePath, .unreadable⟩
  | .symlink _ => .skipped ⟨some relativePath, .symlink⟩
  | .directory _ entries => .descend relativePath entries
  | .special _ => .skipped ⟨some relativePath, .nonRegular⟩
  | .file _ bytes => .document relativePath bytes

theorem classifyEntry_visible (entry : Entry) (visible : Visible entry.name name) (parent : Text) :
    classifyEntry entry parent = classOf (joinRelative parent name) entry := by
  simp only [classifyEntry, visible.decoded, visible.portable, visible.shown, visible.kept, Bool.false_eq_true, Bool.true_eq_false, if_false]
  cases entry <;> rfl

variable {entry : Entry}

theorem classifyEntry_invisible (invisible : ∀ name, ¬Visible entry.name name) (parent : Text) :
    ∃ record, classifyEntry entry parent = .skipped record := by
  unfold classifyEntry
  split
  next => exact ⟨_, rfl⟩
  next name decoded =>
    split
    next => exact ⟨_, rfl⟩
    next portable =>
      dsimp only
      split
      next => exact ⟨_, rfl⟩
      next shown =>
        split
        next => exact ⟨_, rfl⟩
        next kept => exact (invisible name ⟨decoded, Bool.eq_true_of_not_eq_false portable, shown, Bool.eq_false_of_not_eq_true kept⟩).elim

/-- What is not skipped is visible, and its kind decides. -/
theorem classifyEntry_eq {taken : Class} (kept : ∀ record, taken ≠ .skipped record) :
    classifyEntry entry parent = taken ↔ ∃ name, Visible entry.name name ∧ classOf (joinRelative parent name) entry = taken := by
  by_cases seen : ∃ name, Visible entry.name name
  · obtain ⟨name, visible⟩ := seen
    rw [classifyEntry_visible entry visible]
    refine ⟨fun classified => ⟨name, visible, classified⟩, ?_⟩
    rintro ⟨other, alsoVisible, rfl⟩
    rw [Option.some.inj (visible.decoded.symm.trans alsoVisible.decoded)]
  · obtain ⟨record, skipped⟩ := classifyEntry_invisible (not_exists.mp seen) parent
    rw [skipped]
    exact ⟨fun same => absurd same.symm (kept record), fun ⟨name, visible, _⟩ => absurd ⟨name, visible⟩ seen⟩

theorem classifyEntry_document {found : Text} {bytes : Bytes} : classifyEntry entry parent = .document found bytes ↔
    ∃ raw name, entry = .file raw bytes ∧ Visible raw name ∧ found = joinRelative parent name := by
  rw [classifyEntry_eq (by simp)]
  cases entry <;> simp [classOf, Entry.name, eq_comm, and_comm, and_left_comm]

theorem classifyEntry_descend {found : Text} {inner : List Entry} : classifyEntry entry parent = .descend found inner ↔
    ∃ raw name, entry = .directory raw inner ∧ Visible raw name ∧ found = joinRelative parent name := by
  rw [classifyEntry_eq (by simp)]
  cases entry <;> simp [classOf, Entry.name, eq_comm, and_comm, and_left_comm]

section Directories

variable {scope : Scope} {root : List Entry} {frame child : Frame}

variable {entry : Entry}

theorem documentOf_eq_some {found : Text} {bytes : Bytes} : documentOf frame entry = some (found, bytes) ↔
    ∃ raw name, entry = .file raw bytes ∧ Visible raw name ∧ found = joinRelative frame.relative name := by
  rw [← classifyEntry_document]
  unfold documentOf
  split <;> simp_all

theorem childOf_eq_some : scope.childOf frame entry = some child ↔ (scope.recursive = true ∧ frame.depth + 1 ≤ scope.limits.depth) ∧
      ∃ raw name inner, entry = .directory raw inner ∧ Visible raw name ∧ child = ⟨inner, joinRelative frame.relative name, frame.depth + 1⟩ := by
  unfold Scope.childOf
  constructor
  · intro found
    split at found
    next relativePath inner classified =>
      obtain ⟨raw, name, rfl, visible, rfl⟩ := classifyEntry_descend.mp classified
      split at found
      next allowed =>
        cases found
        exact ⟨allowed, raw, name, inner, rfl, visible, rfl⟩
      next => cases found
    next => cases found
  · rintro ⟨allowed, raw, name, inner, rfl, visible, rfl⟩
    rw [classifyEntry_descend.mpr ⟨raw, name, rfl, visible, rfl⟩]
    exact if_pos allowed

/-- One frame pushed on account of another. -/
def Pushes (scope : Scope) (frame child : Frame) : Prop := ∃ entry ∈ frame.entries, scope.childOf frame entry = some child

theorem mem_reach : child ∈ scope.reach frame ↔ Relation.ReflTransGen (Pushes scope) frame child := by
  constructor
  · have general : ∀ depth frame, child ∈ scope.subframes depth frame → Relation.ReflTransGen (Pushes scope) frame child := by
      intro depth
      induction depth with
      | zero =>
        intro frame member
        rw [mem_singleton.mp member]
      | succ depth ih =>
        intro frame member
        rcases mem_cons.mp member with rfl | below
        · exact .refl
        · obtain ⟨middle, pushed, below⟩ := mem_flatMap.mp below
          exact .head (mem_filterMap.mp pushed) (ih middle below)
    exact general _ frame
  · intro reached
    induction reached using Relation.ReflTransGen.head_induction_on with
    | refl =>
      rw [Scope.reach_eq]
      exact mem_cons_self
    | head pushed _ ih =>
      rw [Scope.reach_eq]
      exact mem_cons_of_mem _ (mem_flatMap.mpr ⟨_, mem_filterMap.mpr pushed, ih⟩)

/-- The frame by which a directory is walked. -/
def frameOf (path : List Text) (entries : List Entry) : Frame := ⟨entries, relativePath path, path.length⟩

theorem frameOf_append (path : List Text) (name : Text) (entries : List Entry) :
    frameOf (path ++ [name]) entries = ⟨entries, joinRelative (relativePath path) name, path.length + 1⟩ := by
  rw [frameOf, relativePath_append, length_append]
  rfl

theorem mem_reach_root : frame ∈ scope.reach (frameOf [] root) ↔ ∃ path entries, Walked scope root path entries ∧ frame = frameOf path entries := by
  rw [mem_reach]
  constructor
  · intro reached
    induction reached with
    | refl => exact ⟨[], root, .root, rfl⟩
    | tail _ pushed ih =>
      obtain ⟨path, entries, walked, rfl⟩ := ih
      obtain ⟨entry, member, found⟩ := pushed
      obtain ⟨⟨recursive, within⟩, raw, name, inner, rfl, visible, rfl⟩ := childOf_eq_some.mp found
      exact ⟨path ++ [name], inner, .child recursive walked member visible within, (frameOf_append path name inner).symm⟩
  · rintro ⟨path, entries, walked, rfl⟩
    induction walked with
    | root => exact .refl
    | child recursive parent member visible within ih =>
      exact .tail ih ⟨_, member, childOf_eq_some.mpr ⟨⟨recursive, within⟩, _, _, _, rfl, visible, frameOf_append _ _ _⟩⟩

variable {depth : Nat}

/-- A frame lies below another by the components that its path adds. -/
theorem extends_of_mem_subframes (member : child ∈ scope.subframes depth frame) :
    ∃ path : List Text, (∀ component ∈ path, Component component) ∧ child.relative = path.foldl joinRelative frame.relative := by
  induction depth generalizing frame with
  | zero =>
    rw [mem_singleton.mp member]
    exact ⟨[], nofun, rfl⟩
  | succ depth ih =>
    rcases mem_cons.mp member with rfl | below
    · exact ⟨[], nofun, rfl⟩
    · obtain ⟨middle, pushed, below⟩ := mem_flatMap.mp below
      obtain ⟨entry, -, found⟩ := mem_filterMap.mp pushed
      obtain ⟨-, raw, name, inner, -, visible, rfl⟩ := childOf_eq_some.mp found
      obtain ⟨path, components, extended⟩ := ih below
      exact ⟨name :: path, forall_mem_cons.mpr ⟨visible.component, components⟩, extended⟩

/-- The first component that it adds is the name of the entry that it lies below. -/
theorem extends_child {other : Frame} {path : List Text} (components : ∀ component ∈ path, Component component)
    (relative : frame.relative = relativePath path) (found : scope.childOf frame entry = some child) (member : other ∈ scope.subframes depth child) :
    ∃ name steps, Visible entry.name name ∧ (∀ component ∈ path ++ name :: steps, Component component) ∧
      other.relative = relativePath (path ++ name :: steps) := by
  obtain ⟨-, raw, name, inner, rfl, visible, rfl⟩ := childOf_eq_some.mp found
  obtain ⟨steps, more, extended⟩ := extends_of_mem_subframes member
  refine ⟨name, steps, visible, forall_mem_append.mpr ⟨components, forall_mem_cons.mpr ⟨visible.component, more⟩⟩, ?_⟩
  rw [extended, relative, relativePath, relativePath, foldl_append, foldl_cons]

theorem nodup_subframes {path : List Text} (components : ∀ component ∈ path, Component component) (relative : frame.relative = relativePath path)
    (distinct : ∀ child ∈ scope.subframes depth frame, (child.entries.map Entry.name).Nodup) :
    ((scope.subframes depth frame).map Frame.relative).Nodup := by
  induction depth generalizing frame path with
  | zero => exact nodup_singleton _
  | succ depth ih =>
    rw [Scope.subframes, map_cons, nodup_cons, map_flatMap, nodup_flatMap]
    refine ⟨?_, ?_, ?_⟩
    · intro again
      obtain ⟨child, pushed, again⟩ := mem_flatMap.mp again
      obtain ⟨other, member, same⟩ := mem_map.mp again
      obtain ⟨entry, -, found⟩ := mem_filterMap.mp pushed
      obtain ⟨name, steps, -, more, extended⟩ := extends_child components relative found member
      have longer := relativePath_injective more components (by rw [← extended, same, relative])
      simp at longer
    · intro child pushed
      obtain ⟨entry, -, found⟩ := mem_filterMap.mp pushed
      obtain ⟨-, raw, name, inner, -, visible, rfl⟩ := childOf_eq_some.mp found
      refine ih (components_append components visible) (by rw [relativePath_append, relative]) fun other member => ?_
      exact distinct other (mem_cons_of_mem _ (mem_flatMap.mpr ⟨_, pushed, member⟩))
    · have names : frame.entries.Pairwise fun entry other => entry.name ≠ other.name := pairwise_map.mp (distinct frame mem_cons_self)
      rw [pairwise_filterMap]
      refine names.imp ?_
      intro entry other apart child found second alsoFound text first again
      obtain ⟨one, member, same⟩ := mem_map.mp first
      obtain ⟨two, alsoMember, alsoSame⟩ := mem_map.mp again
      obtain ⟨name, steps, visible, more, extended⟩ := extends_child components relative found member
      obtain ⟨otherName, otherSteps, otherVisible, otherMore, otherExtended⟩ := extends_child components relative alsoFound alsoMember
      have together := relativePath_injective more otherMore (by rw [← extended, ← otherExtended, same, alsoSame])
      obtain ⟨rfl, -⟩ := cons.inj (append_cancel_left together)
      exact apart (visible.unique otherVisible)

theorem nodup_documents {frames : List Frame} (relatives : (frames.map Frame.relative).Nodup)
    (walked : ∀ frame ∈ frames, ∃ path, (∀ component ∈ path, Component component) ∧ frame.relative = relativePath path)
    (distinct : ∀ frame ∈ frames, (frame.entries.map Entry.name).Nodup) : ((documents frames).map Prod.fst).Nodup := by
  rw [documents, map_flatMap, nodup_flatMap]
  refine ⟨?_, ?_⟩
  · intro frame member
    have names : frame.entries.Pairwise fun entry other => entry.name ≠ other.name := pairwise_map.mp (distinct frame member)
    rw [List.Nodup, pairwise_map, pairwise_filterMap]
    refine names.imp ?_
    rintro entry other apart ⟨first, bytes⟩ found ⟨second, otherBytes⟩ alsoFound same
    obtain ⟨raw, name, rfl, visible, rfl⟩ := documentOf_eq_some.mp found
    obtain ⟨otherRaw, otherName, rfl, otherVisible, rfl⟩ := documentOf_eq_some.mp alsoFound
    simp only [joinRelative_eq, append_cancel_left_eq] at same
    subst same
    exact apart (visible.unique otherVisible)
  · have apart := pairwise_map.mp relatives
    refine apart.imp_of_mem ?_
    intro first second member alsoMember different found inFirst inSecond
    obtain ⟨⟨_, bytes⟩, listed, rfl⟩ := mem_map.mp inFirst
    obtain ⟨⟨_, otherBytes⟩, alsoListed, same⟩ := mem_map.mp inSecond
    obtain ⟨entry, -, document⟩ := mem_filterMap.mp listed
    obtain ⟨other, -, otherDocument⟩ := mem_filterMap.mp alsoListed
    obtain ⟨raw, name, rfl, visible, rfl⟩ := documentOf_eq_some.mp document
    obtain ⟨otherRaw, otherName, rfl, otherVisible, rfl⟩ := documentOf_eq_some.mp otherDocument
    obtain ⟨path, components, relative⟩ := walked first member
    obtain ⟨otherPath, otherComponents, otherRelative⟩ := walked second alsoMember
    rw [relative, otherRelative, ← relativePath_append, ← relativePath_append] at same
    have paths := relativePath_injective (components_append otherComponents otherVisible) (components_append components visible) same
    have above : otherPath = path := append_inj_left' paths rfl
    exact different (by rw [relative, otherRelative, above])

end Directories

end Retonr.Catalog
