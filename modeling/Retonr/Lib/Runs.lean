import Mathlib

/-! Runs of marked elements in a list. Every maximal run is keyed by the unmarked
element before it, or by nothing when it opens the list. -/

namespace Retonr.Runs

variable {α : Type} (mark : α → Bool)

/-- The opening run, then every unmarked element with the run that follows it. -/
def segments : List α → List α × List (α × List α)
  | [] => ([], [])
  | first :: rest =>
      if mark first then (first :: (segments rest).1, (segments rest).2) else ([], (first, (segments rest).1) :: (segments rest).2)

def keyed (elements : List α) : List (Option α × List α) :=
  ((none, (segments mark elements).1) :: (segments mark elements).2.map (Prod.map some id)).filter (!·.2.isEmpty)

theorem segments_fst (elements : List α) : (segments mark elements).1 = elements.takeWhile mark := by
  induction elements with
  | nil => rfl
  | cons first rest ih => cases marked : mark first <;> simp [segments, marked, ih]

theorem segments_dropWhile (elements : List α) : segments mark (elements.dropWhile mark) = ([], (segments mark elements).2) := by
  induction elements with
  | nil => rfl
  | cons first rest ih => cases marked : mark first <;> simp [segments, marked, ih]

theorem keyed_marked {first : α} (rest : List α) (marked : mark first = true) : keyed mark (first :: rest) =
      (none, (first :: rest).takeWhile mark) :: keyed mark ((first :: rest).dropWhile mark) := by
  simp [keyed, segments, segments_dropWhile, segments_fst, marked]

theorem keyed_visible {first : α} (rest : List α) (visible : mark first = false) : keyed mark (first :: rest) =
      if (rest.takeWhile mark).isEmpty then keyed mark (rest.dropWhile mark)
      else (some first, rest.takeWhile mark) :: keyed mark (rest.dropWhile mark) := by
  cases opening : (rest.takeWhile mark).isEmpty <;>
    simp [keyed, segments, segments_dropWhile, segments_fst, visible, opening]

/-- The runs partition exactly the marked elements, in order. -/
theorem keyed_flatMap (elements : List α) : (keyed mark elements).flatMap Prod.snd = elements.filter mark := by
  have dropEmpty : ∀ runs : List (Option α × List α), (runs.filter (!·.2.isEmpty)).flatMap Prod.snd = runs.flatMap Prod.snd := by
    intro runs
    induction runs with
    | nil => rfl
    | cons run rest ih =>
      obtain ⟨base, marks⟩ := run
      cases marks <;> simp [ih]
  simp only [keyed, dropEmpty, List.flatMap_cons]
  induction elements with
  | nil => rfl
  | cons first rest ih => cases marked : mark first <;> simp_all [segments]

/-- Containment of runs bounds the occurrences of every marked element. -/
theorem count_le_of_keyed_le [DecidableEq α] {left right : List α}
    (contained : (keyed mark left : Multiset (Option α × List α)) ≤ keyed mark right) {element : α}
    (marked : mark element = true) : left.count element ≤ right.count element := by
  obtain ⟨extra, split⟩ := Multiset.le_iff_exists_add.mp contained
  have flattened := congrArg (fun runs => Multiset.count element (runs.bind (fun run => (run.2 : Multiset α)))) split
  have occurrences : ∀ elements : List α,
      Multiset.count element ((keyed mark elements : Multiset (Option α × List α)).bind fun run => (run.2 : Multiset α)) =
        elements.count element := by
    intro elements
    rw [Multiset.coe_bind, Multiset.coe_count, keyed_flatMap, List.count_filter marked]
  simp only [Multiset.add_bind, Multiset.count_add, occurrences] at flattened
  omega

end Retonr.Runs
