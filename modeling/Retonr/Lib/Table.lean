import Mathlib

/-! Tables with a primary key. A row is replaced or dropped under its key, and no two rows
share one. -/

namespace Retonr
open List

structure Table (κ ρ : Type) where
  rows : List (κ × ρ)
  unique : (rows.map Prod.fst).Nodup
  deriving DecidableEq

namespace Table

def empty {κ ρ : Type} : Table κ ρ := ⟨[], .nil⟩

@[simp] theorem rows_empty {κ ρ : Type} : (empty : Table κ ρ).rows = [] := rfl

variable {κ ρ : Type} [DecidableEq κ]

def findIn (rows : List (κ × ρ)) (key : κ) : Option ρ :=
  match rows with
  | [] => none
  | (other, row) :: rest => if key = other then some row else findIn rest key

def find (table : Table κ ρ) (key : κ) : Option ρ := findIn table.rows key

def upsertIn (rows : List (κ × ρ)) (key : κ) (row : ρ) : List (κ × ρ) :=
  match rows with
  | [] => [(key, row)]
  | (other, old) :: rest => if key = other then (other, row) :: rest else (other, old) :: upsertIn rest key row

theorem keys_upsertIn (rows : List (κ × ρ)) (key : κ) (row : ρ) : (upsertIn rows key row).map Prod.fst =
      if key ∈ rows.map Prod.fst then rows.map Prod.fst else rows.map Prod.fst ++ [key] := by
  induction rows with
  | nil => simp [upsertIn]
  | cons entry rest ih =>
    obtain ⟨other, old⟩ := entry
    by_cases same : key = other
    · simp [upsertIn, same]
    · simp only [upsertIn, same, if_false, map_cons, ih, mem_cons, false_or]
      split <;> simp

def upsert (table : Table κ ρ) (key : κ) (row : ρ) : Table κ ρ where
  rows := upsertIn table.rows key row
  unique := by
    rw [keys_upsertIn]
    split
    · exact table.unique
    next absent => exact (nodup_append_comm.mp (nodup_cons.mpr ⟨absent, table.unique⟩))

def insert (table : Table κ ρ) (key : κ) (row : ρ) : Option (Table κ ρ) :=
  if (table.find key).isSome then none else some (table.upsert key row)

def deleteWhere (table : Table κ ρ) (selected : κ → ρ → Bool) : Table κ ρ where
  rows := table.rows.filter fun entry => !selected entry.1 entry.2
  unique := table.unique.sublist (filter_sublist.map _)

@[simp] theorem find_empty (key : κ) : (empty : Table κ ρ).find key = none := rfl

@[simp] theorem find_upsert (table : Table κ ρ) (key other : κ) (row : ρ) :
    (table.upsert key row).find other = if other = key then some row else table.find other := by
  obtain ⟨rows, unique⟩ := table
  simp only [find, upsert]
  clear unique
  induction rows with
  | nil => simp [upsertIn, findIn]
  | cons entry rest ih =>
    obtain ⟨known, old⟩ := entry
    by_cases same : key = known
    · subst same
      simp only [upsertIn, if_true, findIn]
      split <;> rfl
    · simp only [upsertIn, same, if_false, findIn, ih]
      by_cases hit : other = known
      · simp [hit, Ne.symm same]
      · simp [hit]

theorem rows_upsert_of_find_eq_none {table : Table κ ρ} {key : κ} {row : ρ} (absent : table.find key = none) :
    (table.upsert key row).rows = table.rows ++ [(key, row)] := by
  obtain ⟨rows, unique⟩ := table
  simp only [find] at absent
  simp only [upsert]
  clear unique
  induction rows with
  | nil => rfl
  | cons entry rest ih =>
    obtain ⟨known, old⟩ := entry
    by_cases same : key = known
    · simp [findIn, same] at absent
    · simp only [findIn, same, if_false] at absent
      simp [upsertIn, same, ih absent]

/-- Rows under distinct new keys follow those already there. -/
theorem rows_foldl_upsert {α : Type} {key : α → κ} {row : α → ρ} {items : List α} {table : Table κ ρ} (distinct : (items.map key).Nodup)
    (fresh : ∀ item ∈ items, table.find (key item) = none) : (items.foldl (fun table item => table.upsert (key item) (row item)) table).rows =
      table.rows ++ items.map fun item => (key item, row item) := by
  induction items generalizing table with
  | nil => simp
  | cons item items ih =>
    obtain ⟨unlike, distinct⟩ := nodup_cons.mp distinct
    obtain ⟨absent, others⟩ := forall_mem_cons.mp fresh
    rw [foldl_cons, ih distinct, rows_upsert_of_find_eq_none absent]
    · simp
    · intro other member
      rw [find_upsert, if_neg, others other member]
      intro same
      exact unlike (mem_map.mpr ⟨other, member, same⟩)

theorem upsert_of_find {table : Table κ ρ} {key : κ} {row : ρ} (found : table.find key = some row) : table.upsert key row = table := by
  obtain ⟨rows, unique⟩ := table
  simp only [find] at found
  simp only [upsert, mk.injEq]
  clear unique
  induction rows with
  | nil => cases found
  | cons entry rest ih =>
    obtain ⟨known, old⟩ := entry
    by_cases same : key = known
    · simp only [findIn, same, if_true, Option.some.injEq] at found
      simp [upsertIn, same, found]
    · simp only [findIn, same, if_false] at found
      simp [upsertIn, same, ih found]

theorem mem_rows_iff (table : Table κ ρ) (key : κ) (row : ρ) : (key, row) ∈ table.rows ↔ table.find key = some row := by
  obtain ⟨rows, unique⟩ := table
  simp only [find]
  induction rows with
  | nil => simp [findIn]
  | cons entry rest ih =>
    obtain ⟨known, old⟩ := entry
    obtain ⟨fresh, unique⟩ := nodup_cons.mp unique
    by_cases same : key = known
    · subst same
      have absent : (key, row) ∉ rest := fun member => fresh (mem_map.mpr ⟨_, member, rfl⟩)
      simp [findIn, absent, eq_comm]
    · simp [findIn, same, ih unique]

theorem find_deleteWhere (table : Table κ ρ) (selected : κ → ρ → Bool) (key : κ) :
    (table.deleteWhere selected).find key = (table.find key).filter fun row => !selected key row := by
  apply Option.ext
  intro row
  rw [← mem_rows_iff, Option.filter_eq_some_iff, ← mem_rows_iff]
  simp [deleteWhere]

/-- A table has at most as many rows as there are keys to choose from. -/
theorem length_rows_le (table : Table κ ρ) {keys : List κ} (known : ∀ key row, table.find key = some row → key ∈ keys) :
    table.rows.length ≤ keys.length := by
  have subset : table.rows.map Prod.fst ⊆ keys := by
    intro key member
    obtain ⟨⟨_, row⟩, stored, rfl⟩ := mem_map.mp member
    exact known _ row ((mem_rows_iff ..).mp stored)
  simpa using (subperm_of_subset table.unique subset).length_le

/-- A value stands once in the table exactly when no other key has it. -/
theorem countP_eq_one [DecidableEq ρ] (table : Table κ ρ) {key : κ} {row : ρ} (found : table.find key = some row) :
    table.rows.countP (fun entry => entry.2 == row) = 1 ↔ ∀ other, table.find other = some row → other = key := by
  have member : ∀ other, (other, row) ∈ table.rows.filter (fun entry => entry.2 == row) ↔ table.find other = some row := by
    intro other
    rw [← mem_rows_iff]
    simp
  rw [countP_eq_length_filter]
  constructor
  · intro single other present
    obtain ⟨entry, only⟩ := length_eq_one_iff.mp single
    have first := (member key).mpr found
    have second := (member other).mpr present
    rw [only, mem_singleton] at first second
    exact congrArg Prod.fst (second.trans first.symm)
  · intro only
    have distinct : (table.rows.filter fun entry => entry.2 == row).Nodup := table.unique.of_map.filter _
    have subset : (table.rows.filter fun entry => entry.2 == row) ⊆ [(key, row)] := by
      intro entry stored
      obtain ⟨other, value⟩ := entry
      obtain rfl : value = row := by simpa using (mem_filter.mp stored).2
      rw [only other ((member other).mp stored)]
      exact mem_singleton.mpr rfl
    have short := (subperm_of_subset distinct subset).length_le
    have some := length_pos_of_mem ((member key).mpr found)
    simp only [length_singleton] at short
    omega

end Table

end Retonr
