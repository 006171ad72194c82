import Retonr.App.ArtifactSetPlan

/-! Portable member paths as lists of components: every ancestor of a portable path is one, and the
text order puts it first. -/

namespace Retonr
open Text

theorem not_mem_of_mem_splitOn {α : Type} [BEq α] [LawfulBEq α] {separator : α} {list part : List α} (member : part ∈ list.splitOn separator) :
    separator ∉ part := by
  induction list generalizing part with
  | nil =>
    rw [List.splitOn_nil, List.mem_singleton] at member
    simp [member]
  | cons first rest ih =>
    rw [List.splitOn_cons_eq_if_modifyHead] at member
    split at member
    · rcases List.mem_cons.mp member with rfl | later
      · simp
      · exact ih later
    next differs =>
      cases parts : rest.splitOn separator with
      | nil => exact absurd parts (List.splitOn_ne_nil _ _)
      | cons head tail =>
        rw [parts] at ih member
        rcases List.mem_cons.mp member with rfl | later
        · have unlike : separator ≠ first := fun same => differs (by simp [same])
          simpa [unlike] using ih List.mem_cons_self
        · exact ih (List.mem_cons_of_mem _ later)

variable {components : List Text}

theorem joinPath_append_singleton (nonempty : components ≠ []) (name : Text) :
    joinPath (components ++ [name]) = joinPath components ++ '/' :: name := by
  induction components with
  | nil => exact absurd rfl nonempty
  | cons first rest ih =>
    cases rest with
    | nil => simp [joinPath, List.intercalate]
    | cons second rest =>
      have step := ih (List.cons_ne_nil _ _)
      simp only [joinPath, List.intercalate, List.cons_append, List.intersperse_cons_cons, List.flatten_cons] at step ⊢
      rw [step]
      simp

theorem joinPath_starts (nonempty : components ≠ []) (rest : List Text) : joinPath components <+: joinPath (components ++ rest) := by
  induction rest using List.reverseRecOn with
  | nil => exact (List.append_nil components).symm ▸ List.prefix_rfl
  | append_singleton rest name ih =>
    rw [← List.append_assoc, joinPath_append_singleton (by simp [nonempty])]
    exact ih.trans (List.prefix_append _ _)

namespace ArtifactSetRelativePath

theorem components_ne_nil (path : ArtifactSetRelativePath) : path.components ≠ [] := List.splitOn_ne_nil _ _

theorem joinPath_components (path : ArtifactSetRelativePath) : joinPath path.components = path.asStr := List.intercalate_splitOn _

theorem new_asStr (path : ArtifactSetRelativePath) : new path.asStr = .ok path := by
  unfold new
  split
  · rfl
  next fault checked => cases path.valid.symm.trans checked

end ArtifactSetRelativePath

theorem joinPath_suffix (components : List Text) (name : Text) : name <:+ joinPath (components ++ [name]) := by
  by_cases nonempty : components = []
  · simp [nonempty, joinPath, List.intercalate]
  · rw [joinPath_append_singleton nonempty]
    exact (List.suffix_cons _ _).trans (List.suffix_append _ _)

theorem mem_tail_inits {α : Type} {list start : List α} : start ∈ list.inits.tail ↔ start ≠ [] ∧ start <+: list := by
  cases list with
  | nil => simp
  | cons first rest =>
    simp only [List.inits_cons, List.tail_cons, List.mem_map, List.mem_inits]
    constructor
    · rintro ⟨tail, inside, rfl⟩
      exact ⟨List.cons_ne_nil _ _, by simpa using inside⟩
    · rintro ⟨nonempty, inside⟩
      obtain ⟨head, tail, rfl⟩ := List.exists_cons_of_ne_nil nonempty
      obtain ⟨rfl, within⟩ := List.cons_prefix_cons.mp inside
      exact ⟨tail, within, rfl⟩

theorem mem_properPrefixes {above : List Text} :
    above ∈ properPrefixes components ↔ above ≠ [] ∧ ∃ rest, rest ≠ [] ∧ components = above ++ rest := by
  rw [properPrefixes, mem_tail_inits]
  refine and_congr_right fun nonempty => ?_
  constructor
  · rintro ⟨rest, same⟩
    have proper : components ≠ [] := by
      rintro rfl
      exact nonempty (List.append_eq_nil_iff.mp same).1
    exact ⟨rest ++ [components.getLast proper], by simp, by rw [← List.append_assoc, same, List.dropLast_append_getLast proper]⟩
  · rintro ⟨rest, proper, rfl⟩
    rw [List.dropLast_append_of_ne_nil proper]
    exact List.prefix_append _ _

theorem validatePath_eq_ok {value : Text} : validatePath value = .ok () ↔
    value ≠ [] ∧ byteLen value ≤ maxArtifactSetRelativePathBytes ∧ (∀ char ∈ value, char.toNat ≤ 0x7f) ∧ value.head? ≠ some '/' ∧
      value.getLast? ≠ some '/' ∧ ∀ component ∈ value.splitOn '/', validateComponent component = .ok () := by
  rw [validatePath, ← Except.forM_eq_ok]
  split
  next refused =>
    constructor
    · rintro ⟨⟩
    · rintro ⟨nonempty, short, ascii, start, finish, _⟩
      simp [nonempty, Nat.not_lt.mpr short, start, finish] at refused
      obtain ⟨char, member, wide⟩ := refused
      exact absurd (ascii char member) (Nat.not_le.mpr wide)
  next accepted =>
    simp only [Bool.or_eq_true, List.isEmpty_iff, decide_eq_true_eq, List.any_eq_true, beq_iff_eq, not_or, not_exists, not_and,
      Nat.not_lt] at accepted
    obtain ⟨⟨⟨⟨nonempty, short⟩, ascii⟩, start⟩, finish⟩ := accepted
    exact ⟨fun valid => ⟨nonempty, short, ascii, start, finish, valid⟩, by rintro ⟨_, _, _, _, _, valid⟩; exact valid⟩

namespace ArtifactSetRelativePath

variable {path : ArtifactSetRelativePath} {component : Text}

theorem component_valid (member : component ∈ path.components) :
    validateComponent component = .ok () := (validatePath_eq_ok.mp path.valid).2.2.2.2.2 component member

theorem component_ne_nil (member : component ∈ path.components) : component ≠ [] := by
  rintro rfl
  have valid := component_valid member
  simp [validateComponent] at valid

theorem slash_not_mem (member : component ∈ path.components) : '/' ∉ component :=
  not_mem_of_mem_splitOn member

/-- An ancestor of a portable path is portable. -/
theorem exists_of_prefix (path : ArtifactSetRelativePath) {above rest : List Text} (nonempty : above ≠ [])
    (same : path.components = above ++ rest) : ∃ parent : ArtifactSetRelativePath, parent.components = above := by
  have member : ∀ component ∈ above, component ∈ path.components := fun component inside => same ▸ List.mem_append_left _ inside
  have split : (joinPath above).splitOn '/' = above :=
    List.splitOn_intercalate _ (fun component inside => slash_not_mem (member component inside)) nonempty
  obtain ⟨tail, whole⟩ : joinPath above <+: path.asStr := by
    rw [← path.joinPath_components, same]
    exact joinPath_starts nonempty rest
  obtain ⟨earlier, name, rfl⟩ := List.eq_nil_or_concat above |>.resolve_left nonempty
  rw [List.concat_eq_append] at *
  have inside : name ∈ path.components := member name (by simp)
  obtain ⟨front, ends⟩ := joinPath_suffix earlier name
  have text : joinPath (earlier ++ [name]) ≠ [] := by
    rw [← ends]
    simp [component_ne_nil inside]
  have finish : (joinPath (earlier ++ [name])).getLast? ≠ some '/' := by
    rw [← ends, List.getLast?_append_of_ne_nil _ (component_ne_nil inside)]
    intro last
    exact slash_not_mem inside (List.mem_of_getLast? last)
  obtain ⟨_, short, ascii, start, _, valid⟩ := validatePath_eq_ok.mp path.valid
  refine ⟨⟨joinPath (earlier ++ [name]), validatePath_eq_ok.mpr ⟨text, ?_, ?_, ?_, finish, ?_⟩⟩, split⟩
  · rw [← whole, byteLen_append] at short
    omega
  · intro char inside
    exact ascii char (whole ▸ List.mem_append_left _ inside)
  · rwa [← whole, List.head?_append_of_ne_nil _ text] at start
  · rw [split]
    exact fun component inside => valid component (member component inside)

end ArtifactSetRelativePath

end Retonr
