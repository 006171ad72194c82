import Mathlib

/-! The binary search for the end of the leading items that a predicate holds of. On a list that the
predicate splits in two it finds exactly where the second part begins. -/

namespace Retonr

variable {α : Type}

/-- Halves the window of so many items from the base on until one is left; the size is fuel enough. -/
def narrow (holds : α → Bool) (items : List α) : Nat → Nat → Nat → Nat
  | 0, base, _ => base
  | fuel + 1, base, size =>
      if size ≤ 1 then base
      else
        let half := size / 2
        narrow holds items fuel (if items[base + half]?.any holds then base + half else base) (size - half)

def partitionPoint (holds : α → Bool) (items : List α) : Nat :=
  if items.isEmpty then 0
  else
    let base := narrow holds items items.length 0 items.length
    if items[base]?.any holds then base + 1 else base

section

variable {holds : α → Bool} {items : List α} {boundary : Nat}

/-- The window keeps the boundary: it lies after the base, unless that is the first item, and not after the window. -/
theorem narrow_keeps (split : ∀ index < items.length, items[index]?.any holds = true ↔ index < boundary) {fuel base size : Nat} (enough : size ≤ fuel)
    (filled : 1 ≤ size) (inside : base + size ≤ items.length) (after : base = 0 ∨ base < boundary) (within : boundary ≤ base + size) :
    narrow holds items fuel base size < items.length ∧
      (narrow holds items fuel base size = 0 ∨ narrow holds items fuel base size < boundary) ∧ boundary ≤ narrow holds items fuel base size + 1 := by
  induction fuel generalizing base size with
  | zero => omega
  | succ fuel ih =>
    unfold narrow
    by_cases single : size ≤ 1
    · rw [if_pos single]
      omega
    · rw [if_neg single]
      by_cases found : items[base + size / 2]?.any holds = true
      · have before := (split (base + size / 2) (by omega)).mp found
        simp only [found, if_true]
        exact ih (by omega) (by omega) (by omega) (.inr before) (by omega)
      · have beyond : ¬base + size / 2 < boundary := fun before => found ((split (base + size / 2) (by omega)).mpr before)
        simp only [found, Bool.false_eq_true, if_false]
        exact ih (by omega) (by omega) (by omega) after (by omega)

theorem partitionPoint_append {first rest : List α} (all : ∀ item ∈ first, holds item = true) (none : ∀ item ∈ rest, holds item = false) :
    partitionPoint holds (first ++ rest) = first.length := by
  have split : ∀ index < (first ++ rest).length, (first ++ rest)[index]?.any holds = true ↔ index < first.length := by
    intro index inside
    by_cases early : index < first.length
    · rw [List.getElem?_append_left early, List.getElem?_eq_getElem early]
      simp [early, all]
    · have late : index - first.length < rest.length := by
        rw [List.length_append] at inside
        omega
      rw [List.getElem?_append_right (by omega), List.getElem?_eq_getElem late]
      simp [early, none]
  unfold partitionPoint
  split
  next empty =>
    simp only [List.isEmpty_iff, List.append_eq_nil_iff] at empty
    rw [empty.1, List.length_nil]
  next filled =>
    have positive : 1 ≤ (first ++ rest).length := List.length_pos_iff.mpr (by simpa using filled)
    have bounded : first.length ≤ 0 + (first ++ rest).length := by
      rw [List.length_append]
      omega
    obtain ⟨inside, after, within⟩ := narrow_keeps split (Nat.le_refl _) positive (by omega) (.inl rfl) bounded
    dsimp only
    by_cases found : (first ++ rest)[narrow holds (first ++ rest) (first ++ rest).length 0 (first ++ rest).length]?.any holds = true
    · have before := (split _ inside).mp found
      rw [if_pos found]
      omega
    · have beyond := mt (split _ inside).mpr found
      rw [if_neg found]
      omega

end

end Retonr
