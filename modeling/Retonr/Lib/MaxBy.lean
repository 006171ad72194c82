import Mathlib

/-! The last greatest element of a list. When no two elements compare equal it is
the only greatest one, so it does not depend on the order of the list. -/

namespace Retonr
open List

def maxBy {α : Type} (cmp : α → α → Ordering) : List α → Option α
  | [] => none
  | first :: rest => some (rest.foldl (fun best next => if cmp best next = .gt then best else next) first)

namespace MaxBy
open Std

variable {α : Type} {cmp : α → α → Ordering}

private theorem fold_mem (rest : List α) (first : α) :
    rest.foldl (fun best next => if cmp best next = .gt then best else next) first ∈ first :: rest := by
  induction rest generalizing first with
  | nil => simp
  | cons next rest ih =>
    simp only [foldl_cons]
    split
    · have member := ih first
      simp only [mem_cons] at member ⊢
      tauto
    · exact mem_cons_of_mem _ (ih next)

private theorem fold_greatest [TransCmp cmp] (rest : List α) (first item : α) (member : item ∈ first :: rest) :
    cmp item (rest.foldl (fun best next => if cmp best next = .gt then best else next) first) ≠ .gt := by
  induction rest generalizing first item with
  | nil =>
    obtain rfl := mem_singleton.mp member
    simp [ReflCmp.compare_self]
  | cons next rest ih =>
    simp only [foldl_cons]
    rcases mem_cons.mp member with rfl | member
    · split
      · exact ih item item (by simp)
      next smaller =>
        exact TransCmp.le_trans smaller (ih next next (by simp))
    · split
      next larger =>
        rcases mem_cons.mp member with rfl | member
        · have below : cmp item first ≠ .gt := by
            have swapped : cmp item first = (cmp first item).swap := OrientedCmp.eq_swap
            simp [swapped, larger]
          exact TransCmp.le_trans below (ih first first (by simp))
        · exact ih first item (mem_cons_of_mem _ member)
      next => exact ih next item member

theorem mem_of_eq {items : List α} {best : α} (chosen : maxBy cmp items = some best) : best ∈ items := by
  cases items with
  | nil => simp [maxBy] at chosen
  | cons first rest =>
    simp only [maxBy, Option.some.injEq] at chosen
    exact chosen ▸ fold_mem rest first

theorem greatest_of_eq [TransCmp cmp] {items : List α} {best : α} (chosen : maxBy cmp items = some best) :
    ∀ item ∈ items, cmp item best ≠ .gt := by
  cases items with
  | nil => simp [maxBy] at chosen
  | cons first rest =>
    simp only [maxBy, Option.some.injEq] at chosen
    exact fun item member => chosen ▸ fold_greatest rest first item member

theorem eq_none_iff {items : List α} : maxBy cmp items = none ↔ items = [] := by
  cases items <;> simp [maxBy]

/-- With distinct ranks the choice is a function of the elements alone. -/
theorem eq_of_perm [TransCmp cmp] {items others : List α} (same : items.Perm others)
    (distinct : ∀ first ∈ items, ∀ second ∈ items, cmp first second = .eq → first = second) : maxBy cmp items = maxBy cmp others := by
  cases chosen : maxBy cmp items with
  | none =>
    obtain rfl := eq_none_iff.mp chosen
    simp [nil_perm.mp same, maxBy]
  | some best =>
    cases other : maxBy cmp others with
    | none =>
      obtain rfl := eq_none_iff.mp other
      simp [perm_nil.mp same, maxBy] at chosen
    | some rival =>
      have bestMember := mem_of_eq chosen
      have rivalMember := same.mem_iff.mpr (mem_of_eq other)
      have below := greatest_of_eq chosen rival rivalMember
      have above := greatest_of_eq other best (same.mem_iff.mp bestMember)
      have equal : cmp best rival = .eq := by
        have swapped : cmp rival best = (cmp best rival).swap := OrientedCmp.eq_swap
        cases order : cmp best rival <;> simp_all
      rw [distinct best bestMember rival rivalMember equal]

end MaxBy

end Retonr
