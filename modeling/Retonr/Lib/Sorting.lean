import Mathlib

/-! Stable sorting by a comparison. Where the comparison tells the items apart, the order in which they
came does not show in the result. -/

namespace Retonr

variable {α : Type}

def sortBy (cmp : α → α → Ordering) (items : List α) : List α := items.insertionSort fun left right => (cmp left right).isLE = true

section

variable {cmp : α → α → Ordering} {items others : List α}

theorem sortBy_perm : (sortBy cmp items).Perm items := List.perm_insertionSort _ _

theorem mem_sortBy {item : α} : item ∈ sortBy cmp items ↔ item ∈ items := sortBy_perm.mem_iff

variable [Std.TransCmp cmp]

theorem pairwise_sortBy (items : List α) : (sortBy cmp items).Pairwise fun left right => (cmp left right).isLE = true := by
  have total : Std.Total fun left right => (cmp left right).isLE = true := ⟨by
    intro left right
    have swapped : cmp right left = (cmp left right).swap := Std.OrientedCmp.eq_swap
    rw [swapped]
    cases cmp left right <;> decide⟩
  have transitive : IsTrans α fun left right => (cmp left right).isLE = true := ⟨fun _ _ _ => Std.TransCmp.isLE_trans⟩
  exact List.pairwise_insertionSort _ items

theorem sortBy_eq_of_perm (same : items.Perm others) (settled : ∀ left ∈ items, ∀ right ∈ items, cmp left right = .eq → left = right) :
    sortBy cmp items = sortBy cmp others := by
  refine List.Perm.eq_of_pairwise ?_ (pairwise_sortBy items) (pairwise_sortBy others) (sortBy_perm.trans (same.trans sortBy_perm.symm))
  intro left right first second below above
  have swapped : cmp right left = (cmp left right).swap := Std.OrientedCmp.eq_swap
  have equal : cmp left right = .eq := by
    rw [swapped] at above
    cases compared : cmp left right <;> simp_all
  exact settled left (mem_sortBy.mp first) right (same.mem_iff.mpr (mem_sortBy.mp second)) equal

theorem strict_sortBy (distinct : items.Pairwise fun left right => cmp left right ≠ .eq) :
    (sortBy cmp items).Pairwise fun left right => cmp left right = .lt := by
  have apart : (sortBy cmp items).Pairwise fun left right => cmp left right ≠ .eq := by
    refine (sortBy_perm.pairwise_iff ?_).mpr distinct
    intro left right differs equal
    exact differs (Std.OrientedCmp.eq_comm.mp equal)
  refine List.Pairwise.imp ?_ ((pairwise_sortBy items).and apart)
  intro left right both
  cases compared : cmp left right <;> simp_all

end

end Retonr
