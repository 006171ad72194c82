import Retonr.Proofs.ArtifactSetPaths

/-! The path trie decides portability pair by pair. What a node admits after an insertion is what it
admitted before, less everything that clashes with the inserted path. -/

namespace Retonr
open Text List

/-- Two component lists that no portable tree can hold together. -/
def Clash : List Text → List Text → Prop
  | first :: rest, other :: others =>
      toAsciiLowercase first = toAsciiLowercase other ∧ (first ≠ other ∨ rest = [] ∨ others = [] ∨ Clash rest others)
  | _, _ => False

variable {first second : List Text}

theorem Clash.symm (clash : Clash first second) : Clash second first := by
  induction first generalizing second with
  | nil => exact clash.elim
  | cons component rest ih =>
    cases second with
    | nil => exact clash.elim
    | cons other others =>
      obtain ⟨same, spelling | short | long | deeper⟩ := clash
      · exact ⟨same.symm, .inl (Ne.symm spelling)⟩
      · exact ⟨same.symm, .inr (.inr (.inl short))⟩
      · exact ⟨same.symm, .inr (.inl long)⟩
      · exact ⟨same.symm, .inr (.inr (.inr (ih deeper)))⟩

namespace PathNode

/-- Inserting these components succeeds. -/
def Admits (node : PathNode) (components : List Text) : Prop := ∃ grown, insertComponents components node = .ok grown

variable {key : Text}

theorem lookup_filter_ne {other : Text} (apart : other ≠ key) (children : List (Text × PathNode)) :
    (children.filter fun entry => entry.1 != key).lookup other = children.lookup other := by
  induction children with
  | nil => rfl
  | cons entry children ih =>
    obtain ⟨name, child⟩ := entry
    by_cases here : name = key
    · have unlike : (other == name) = false := by simpa [here] using apart
      simp only [filter_cons, here, bne_self_eq_false, Bool.false_eq_true, if_false, lookup_cons]
      rw [ih, ← here, unlike]
    · simp only [filter_cons, bne_iff_ne.mpr here, if_true, lookup_cons, ih]

/-- The child that a component leads to, present or fresh. -/
def childFor (node : PathNode) (component : Text) : PathNode := node.childOr (toAsciiLowercase component) component

/-- The node at which a path ends. -/
def ended (node : PathNode) : PathNode := mk node.children node.spelling true

variable {component : Text}

theorem childFor_withChild (node child : PathNode) (same : toAsciiLowercase component = key) :
    (node.withChild key child).childFor component = child := by
  simp [childFor, childOr, withChild, children, same]

theorem childFor_withChild_ne (node child : PathNode) (apart : toAsciiLowercase component ≠ key) :
    (node.withChild key child).childFor component = node.childFor component := by
  have unlike : (toAsciiLowercase component == key) = false := by simpa using apart
  simp only [childFor, childOr, withChild, children, lookup_cons, unlike, lookup_filter_ne apart]

variable {rest : List Text} {node grown : PathNode}

theorem insertComponents_cons_eq_ok : insertComponents (component :: rest) node = .ok grown ↔
      ((node.childFor component).spelling = component ∧ (node.childFor component).terminal = false ∧
          (rest = [] → (node.childFor component).children = [])) ∧
        ∃ inner, insertComponents rest (if rest = [] then (node.childFor component).ended else node.childFor component) = .ok inner ∧
          grown = node.withChild (toAsciiLowercase component) inner := by
  simp only [insertComponents, Except.bind_eq_ok, exists_unit, Except.require_eq_ok, List.isEmpty_iff, Except.ok.injEq, eq_comm (a := grown),
    childFor, ended]

theorem admits_cons (more : rest ≠ []) : node.Admits (component :: rest) ↔
      (node.childFor component).spelling = component ∧ (node.childFor component).terminal = false ∧ (node.childFor component).Admits rest := by
  simp only [Admits, insertComponents_cons_eq_ok, more, if_false, false_implies, and_true]
  constructor
  · rintro ⟨_, ⟨spelled, open_⟩, inner, inserted, -⟩
    exact ⟨spelled, open_, inner, inserted⟩
  · rintro ⟨spelled, open_, inner, inserted⟩
    exact ⟨_, ⟨spelled, open_⟩, inner, inserted, rfl⟩

theorem admits_singleton : node.Admits [component] ↔
      (node.childFor component).spelling = component ∧ (node.childFor component).terminal = false ∧ (node.childFor component).children = [] := by
  simp only [Admits, insertComponents_cons_eq_ok, if_true, forall_const]
  constructor
  · rintro ⟨_, checked, -⟩
    exact checked
  · intro checked
    exact ⟨_, checked, _, rfl, rfl⟩

theorem admits_congr {other : PathNode} (same : node.childFor component = other.childFor component) :
    node.Admits (component :: rest) ↔ other.Admits (component :: rest) := by
  by_cases last : rest = []
  · rw [last, admits_singleton, admits_singleton, same]
  · rw [admits_cons last, admits_cons last, same]

theorem grown_of_insert {components : List Text} (inserted : insertComponents components node = .ok grown) :
    grown.spelling = node.spelling ∧ grown.terminal = node.terminal ∧ (components ≠ [] → grown.children ≠ []) := by
  cases components with
  | nil =>
    cases inserted
    exact ⟨rfl, rfl, fun proper => absurd rfl proper⟩
  | cons component rest =>
    obtain ⟨-, inner, -, rfl⟩ := insertComponents_cons_eq_ok.mp inserted
    exact ⟨rfl, rfl, fun _ => cons_ne_nil _ _⟩

theorem admits_fresh (components : List Text) (spelling : Text) (terminal : Bool) : (mk [] spelling terminal).Admits components := by
  induction components generalizing spelling terminal with
  | nil => exact ⟨_, rfl⟩
  | cons component rest ih =>
    by_cases last : rest = []
    · rw [last, admits_singleton]
      exact ⟨rfl, rfl, rfl⟩
    · rw [admits_cons last]
      exact ⟨rfl, rfl, ih component false⟩

/-- An insertion takes away exactly what clashes with the inserted path. -/
theorem admits_insert {components : List Text} (proper : components ≠ [])
    (inserted : insertComponents components node = .ok grown) {others : List Text} (nonempty : others ≠ []) :
    grown.Admits others ↔ node.Admits others ∧ ¬Clash components others := by
  induction components generalizing node grown others with
  | nil => exact absurd rfl proper
  | cons component rest ih =>
    obtain ⟨other, more, rfl⟩ := exists_cons_of_ne_nil nonempty
    obtain ⟨⟨spelled, free, leaf⟩, inner, below, rfl⟩ := insertComponents_cons_eq_ok.mp inserted
    by_cases key : toAsciiLowercase other = toAsciiLowercase component
    · by_cases last : rest = []
      · -- the inserted path ends here, so nothing may go through or end at this component
        rw [if_pos last, last] at below
        cases below
        have refused : ¬(node.withChild (toAsciiLowercase component) (node.childFor component).ended).Admits (other :: more) := by
          by_cases ends : more = []
          · rw [ends, admits_singleton, childFor_withChild _ _ key]
            simp [ended, terminal]
          · rw [admits_cons ends, childFor_withChild _ _ key]
            simp [ended, terminal]
        simp [refused, Clash, key, last]
      · rw [if_neg last] at below
        obtain ⟨keptSpelling, keptTerminal, filled⟩ := grown_of_insert below
        have clash : Clash (component :: rest) (other :: more) ↔ component ≠ other ∨ more = [] ∨ Clash rest more := by
          simp [Clash, key, last]
        rw [clash]
        by_cases ends : more = []
        · have refused : ¬(node.withChild (toAsciiLowercase component) inner).Admits (other :: more) := by
            rw [ends, admits_singleton, childFor_withChild _ _ key]
            simp [filled last]
          exact iff_of_false refused fun admitted => admitted.2 (.inr (.inl ends))
        · by_cases spelling : component = other
          · subst spelling
            have deeper := ih last below ends
            rw [admits_cons ends, childFor_withChild _ _ rfl, keptSpelling, keptTerminal, deeper, admits_cons ends]
            simp [spelled, free, ends]
          · have refused : ¬(node.withChild (toAsciiLowercase component) inner).Admits (other :: more) := by
              rw [admits_cons ends, childFor_withChild _ _ key, keptSpelling, spelled]
              simp [spelling]
            exact iff_of_false refused fun admitted => admitted.2 (.inl spelling)
    · have apart : ¬Clash (component :: rest) (other :: more) := fun clash => key clash.1.symm
      rw [admits_congr (childFor_withChild_ne node inner key)]
      simp [apart]

/-- Inserts the paths one after the other. -/
def insertAll (paths : List ArtifactSetRelativePath) (node : PathNode) : Except ArtifactSetManifestError PathNode :=
  paths.foldlM (fun node path => node.insert path.asStr) node

theorem insertAll_ok_iff (paths : List ArtifactSetRelativePath) (node : PathNode) : (∃ grown, insertAll paths node = .ok grown) ↔
      (∀ path ∈ paths, node.Admits path.components) ∧ paths.Pairwise fun path other => ¬Clash path.components other.components := by
  induction paths generalizing node with
  | nil => simpa using ⟨node, rfl⟩
  | cons path paths ih =>
    have first : (∃ grown, insertAll (path :: paths) node = .ok grown) ↔
        ∃ between, insertComponents path.components node = .ok between ∧ ∃ grown, insertAll paths between = .ok grown := by
      simp only [insertAll, foldlM_cons, Except.bind_eq_ok, insert, ArtifactSetRelativePath.components]
      constructor
      · rintro ⟨grown, between, inserted, rest⟩
        exact ⟨between, inserted, grown, rest⟩
      · rintro ⟨between, inserted, grown, rest⟩
        exact ⟨grown, between, inserted, rest⟩
    rw [first, pairwise_cons, forall_mem_cons]
    constructor
    · rintro ⟨between, inserted, rest⟩
      obtain ⟨admitted, apart⟩ := (ih between).mp rest
      have left (other : ArtifactSetRelativePath) (member : other ∈ paths) :=
        (admits_insert path.components_ne_nil inserted other.components_ne_nil).mp (admitted other member)
      exact ⟨⟨⟨between, inserted⟩, fun other member => (left other member).1⟩, fun other member => (left other member).2, apart⟩
    · rintro ⟨⟨⟨between, inserted⟩, admitted⟩, free, apart⟩
      refine ⟨between, inserted, (ih between).mpr ⟨?_, apart⟩⟩
      intro other member
      exact (admits_insert path.components_ne_nil inserted other.components_ne_nil).mpr ⟨admitted other member, free other member⟩

theorem insertAll_root (paths : List ArtifactSetRelativePath) :
    (∃ grown, insertAll paths root = .ok grown) ↔ paths.Pairwise fun path other => ¬Clash path.components other.components := by
  rw [insertAll_ok_iff]
  exact and_iff_right fun path _ => admits_fresh path.components [] false

end PathNode

/-- The components of a path without their case. -/
def lowered (components : List Text) : List Text := components.map toAsciiLowercase

theorem clash_of_lowered_start (proper : first ≠ []) (above : lowered first <+: lowered second) : Clash first second := by
  induction first generalizing second with
  | nil => exact absurd rfl proper
  | cons component rest ih =>
    cases second with
    | nil => simp [lowered] at above
    | cons other others =>
      obtain ⟨same, below⟩ := cons_prefix_cons.mp above
      by_cases last : rest = []
      · exact ⟨same, .inr (.inl last)⟩
      · exact ⟨same, .inr (.inr (.inr (ih last below)))⟩

theorem clash_of_spelling {front back : List Text} (start : front <+: first) (other : back <+: second)
    (same : lowered front = lowered back) (apart : front ≠ back) : Clash first second := by
  induction front generalizing first second back with
  | nil => exact absurd (map_eq_nil_iff.mp same.symm).symm apart
  | cons component front ih =>
    cases back with
    | nil => simp [lowered] at same
    | cons mate back =>
      obtain ⟨rest, rfl⟩ := start
      obtain ⟨more, rfl⟩ := other
      simp only [lowered, map_cons, List.cons.injEq] at same
      refine ⟨same.1, ?_⟩
      by_cases spelling : component = mate
      · exact .inr (.inr (.inr (ih (prefix_append _ _) (prefix_append _ _) same.2 fun equal => apart (by rw [spelling, equal]))))
      · exact .inl spelling

/-- A clash is an equal path, a path inside another or a second spelling. -/
theorem clash_cases (clash : Clash first second) : (lowered first <+: lowered second ∨ lowered second <+: lowered first) ∨
      ∃ front back, front <+: first ∧ back <+: second ∧ lowered front = lowered back ∧ front ≠ back := by
  induction first generalizing second with
  | nil => exact clash.elim
  | cons component rest ih =>
    cases second with
    | nil => exact clash.elim
    | cons other others =>
      obtain ⟨same, spelling | short | long | deeper⟩ := clash
      · exact .inr ⟨[component], [other], by simp, by simp, by simp [lowered, same], by simp [spelling]⟩
      · exact .inl (.inl (by simp [lowered, same, short]))
      · exact .inl (.inr (by simp [lowered, same, long]))
      · rcases ih deeper with (above | below) | ⟨front, back, start, other_, equal, apart⟩
        · exact .inl (.inl (cons_prefix_cons.mpr ⟨same, above⟩))
        · exact .inl (.inr (cons_prefix_cons.mpr ⟨same.symm, below⟩))
        · refine .inr ⟨component :: front, other :: back, cons_prefix_cons.mpr ⟨rfl, start⟩,
            cons_prefix_cons.mpr ⟨rfl, other_⟩, ?_, ?_⟩
          · simpa [lowered, same] using equal
          · simp [apart]

theorem toLower_eq_slash (char : Char) : char.toLower = '/' ↔ char = '/' := by
  unfold Char.toLower
  split
  next upper =>
    have bounds : 65 ≤ char.val.toNat ∧ char.val.toNat ≤ 90 := upper
    constructor
    · intro same
      have value : char.val + ('a'.val - 'A'.val) = '/'.val := congrArg Char.val same
      have number := congrArg UInt32.toNat value
      rw [UInt32.toNat_add, Nat.mod_eq_of_lt (by rw [show ('a'.val - 'A'.val).toNat = 32 by decide]; omega)] at number
      have shown : ('a'.val - 'A'.val).toNat = 32 ∧ '/'.val.toNat = 47 := by decide
      omega
    · rintro rfl
      exact absurd bounds (by decide)
  · rfl

theorem splitOn_toAsciiLowercase (text : Text) : (toAsciiLowercase text).splitOn '/' = lowered (text.splitOn '/') := by
  induction text with
  | nil => rfl
  | cons char rest ih =>
    simp only [toAsciiLowercase, map_cons] at ih ⊢
    rw [splitOn_cons_eq_if_modifyHead, splitOn_cons_eq_if_modifyHead, ih]
    by_cases slash : char = '/'
    · have kept := (toLower_eq_slash char).mpr slash
      simp [slash, lowered, toAsciiLowercase]
    · have kept : char.toLower ≠ '/' := fun same => slash ((toLower_eq_slash char).mp same)
      cases parts : rest.splitOn '/' with
      | nil => exact absurd parts (splitOn_ne_nil _ _)
      | cons head tail => simp [slash, kept, lowered, toAsciiLowercase]

namespace ArtifactSetRelativePath

/-- When case is ignored, the first path is a directory above the second. -/
def ProperlyAbove (path other : ArtifactSetRelativePath) : Prop :=
  lowered path.components <+: lowered other.components ∧ lowered path.components ≠ lowered other.components

/-- The paths start with the same components in two spellings. -/
def SpelledApart (path other : ArtifactSetRelativePath) : Prop :=
  ∃ front back, front <+: path.components ∧ back <+: other.components ∧ lowered front = lowered back ∧ front ≠ back

/-- No portable tree can hold both paths. -/
def Collides (path other : ArtifactSetRelativePath) : Prop :=
  eqIgnoreAsciiCase path.asStr other.asStr = true ∨ (path.ProperlyAbove other ∨ other.ProperlyAbove path) ∨ path.SpelledApart other

theorem eqIgnoreAsciiCase_iff (path other : ArtifactSetRelativePath) :
    eqIgnoreAsciiCase path.asStr other.asStr = true ↔ lowered path.components = lowered other.components := by
  rw [eqIgnoreAsciiCase, beq_iff_eq, components, components, ← splitOn_toAsciiLowercase, ← splitOn_toAsciiLowercase]
  constructor
  · intro same
    rw [same]
  · intro same
    have joined := congrArg (List.intercalate ['/']) same
    rwa [intercalate_splitOn, intercalate_splitOn] at joined

theorem collides_iff (path other : ArtifactSetRelativePath) : path.Collides other ↔ Clash path.components other.components := by
  rw [Collides, eqIgnoreAsciiCase_iff]
  constructor
  · rintro (same | (above | below) | ⟨front, back, start, otherStart, same, apart⟩)
    · exact clash_of_lowered_start path.components_ne_nil (same ▸ prefix_rfl)
    · exact clash_of_lowered_start path.components_ne_nil above.1
    · exact (clash_of_lowered_start other.components_ne_nil below.1).symm
    · exact clash_of_spelling start otherStart same apart
  · intro clash
    by_cases same : lowered path.components = lowered other.components
    · exact .inl same
    · rcases clash_cases clash with (above | below) | spelling
      · exact .inr (.inl (.inl ⟨above, same⟩))
      · exact .inr (.inl (.inr ⟨below, Ne.symm same⟩))
      · exact .inr (.inr spelling)

theorem Collides.symm {path other : ArtifactSetRelativePath} (collides : path.Collides other) : other.Collides path :=
  (collides_iff other path).mpr ((collides_iff path other).mp collides).symm

end ArtifactSetRelativePath

theorem insertAll_iff_apart (paths : List ArtifactSetRelativePath) :
    (∃ trie, PathNode.insertAll paths .root = .ok trie) ↔ paths.Pairwise fun path other => ¬path.Collides other := by
  simp only [PathNode.insertAll_root, ArtifactSetRelativePath.collides_iff]

/-- All paths go into the trie exactly when no two positions hold paths that collide, in whatever
order they are inserted. -/
theorem trie_decides_portability (paths : List ArtifactSetRelativePath) : ((∃ trie, PathNode.insertAll paths .root = .ok trie) ↔
      ∀ first second : Fin paths.length, first ≠ second → ¬(paths.get first).Collides (paths.get second)) ∧ ∀ others, paths.Perm others →
      ((∃ trie, PathNode.insertAll paths .root = .ok trie) ↔ ∃ trie, PathNode.insertAll others .root = .ok trie) := by
  constructor
  · rw [insertAll_iff_apart, pairwise_iff_get]
    constructor
    · intro apart first second distinct
      rcases lt_or_gt_of_ne distinct with before | after
      · exact apart first second before
      · exact fun collides => apart second first after collides.symm
    · intro apart first second before
      exact apart first second (ne_of_lt before)
  · intro others same
    rw [insertAll_iff_apart, insertAll_iff_apart]
    exact same.pairwise_iff fun apart collides => apart collides.symm

/-- The path `a/b`. -/
def nestedPath : ArtifactSetRelativePath := ⟨"a/b".toList, by decide⟩

/-- The path `c`. -/
def flatPath : ArtifactSetRelativePath := ⟨"c".toList, by decide⟩

theorem trie_decides_portability_reversed :
    (∃ trie, PathNode.insertAll [nestedPath, flatPath] .root = .ok trie) ∧ ∃ trie, PathNode.insertAll [flatPath, nestedPath] .root = .ok trie := by
  have inserted : ∃ trie, PathNode.insertAll [nestedPath, flatPath] .root = .ok trie := ⟨_, rfl⟩
  exact ⟨inserted, ((trie_decides_portability [nestedPath, flatPath]).2 [flatPath, nestedPath] (List.Perm.swap _ _ _)).mp inserted⟩

end Retonr
