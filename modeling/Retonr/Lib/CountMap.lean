import Mathlib

/-! Occurrence counts kept in a map and consumed one at a time. An absent key and a
key counted down to zero are both refused. -/

namespace Retonr

abbrev CountMap (κ : Type) := List (κ × Nat)

namespace CountMap

variable {κ : Type} [DecidableEq κ]

def count (counts : CountMap κ) (key : κ) : Nat := (counts.lookup key).getD 0

def increment (counts : CountMap κ) (key : κ) : CountMap κ :=
  match counts with
  | [] => [(key, 1)]
  | (other, value) :: rest => if key = other then (other, value + 1) :: rest else (other, value) :: increment rest key

def tally (keys : List κ) : CountMap κ := keys.foldl increment []

/-- Takes one occurrence of the key, or refuses when none is left. -/
def consume (counts : CountMap κ) (key : κ) : Option (CountMap κ) :=
  match counts with
  | [] => none
  | (other, value) :: rest =>
      if key = other then if value = 0 then none else some ((other, value - 1) :: rest)
      else (consume rest key).map ((other, value) :: ·)

@[simp] theorem count_nil (key : κ) : count ([] : CountMap κ) key = 0 := rfl

theorem count_cons (other : κ) (value : Nat) (rest : CountMap κ) (key : κ) :
    count ((other, value) :: rest) key = if key = other then value else count rest key := by
  by_cases same : key = other
  · simp [count, same]
  · have different : (key == other) = false := by simpa using same
    simp [count, List.lookup_cons, different, same]

theorem count_increment (counts : CountMap κ) (key other : κ) :
    count (increment counts key) other = count counts other + if other = key then 1 else 0 := by
  induction counts with
  | nil => simp [increment, count_cons]
  | cons entry rest ih =>
    obtain ⟨known, value⟩ := entry
    by_cases same : key = known
    · subst same
      simp only [increment, if_true, count_cons]
      split <;> simp
    · simp only [increment, same, if_false, count_cons, ih]
      by_cases hit : other = known
      · simp [hit, Ne.symm same]
      · simp [hit]

theorem count_tally (keys : List κ) (key : κ) : count (tally keys) key = keys.count key := by
  have general : ∀ counts : CountMap κ, count (keys.foldl increment counts) key = count counts key + keys.count key := by
    induction keys with
    | nil => simp
    | cons first rest ih =>
      intro counts
      simp only [List.foldl_cons, ih, count_increment, List.count_cons, beq_iff_eq]
      by_cases same : first = key
      · simp [same]
        omega
      · simp [same, Ne.symm same]
  simpa [tally] using general []

theorem consume_eq_none_iff (counts : CountMap κ) (key : κ) : consume counts key = none ↔ count counts key = 0 := by
  induction counts with
  | nil => simp [consume]
  | cons entry rest ih =>
    obtain ⟨other, value⟩ := entry
    by_cases same : key = other
    · subst same
      by_cases empty : value = 0 <;> simp [consume, count_cons, empty]
    · simpa [consume, count_cons, same] using ih

theorem count_consume {counts remaining : CountMap κ} {key : κ} (taken : consume counts key = some remaining) (other : κ) :
    count counts other = count remaining other + if other = key then 1 else 0 := by
  induction counts generalizing remaining with
  | nil => simp [consume] at taken
  | cons entry rest ih =>
    obtain ⟨known, value⟩ := entry
    by_cases same : key = known
    · subst same
      simp only [consume, if_true] at taken
      split at taken
      · cases taken
      next positive =>
        cases taken
        simp only [count_cons]
        split <;> omega
    · simp only [consume, same, if_false, Option.map_eq_some_iff] at taken
      obtain ⟨shorter, inner, rfl⟩ := taken
      have step := ih inner
      simp only [count_cons]
      by_cases hit : other = known
      · simp [hit, Ne.symm same]
      · simpa [hit] using step

end CountMap

end Retonr
