import Mathlib

/-! A pool of workers that take the positions of a list from one shared counter. Each worker keeps its own
results; a worker that is joined hands them over, one that failed hands over nothing, and what is then
still missing is worked out at the end. Every schedule yields what one pass over the list does. -/

namespace Retonr
open List

/-- A worker between two of its steps, with the position it has taken and not yet worked on. -/
inductive Worker (β : Type) where
  | running (claimed : Option Nat) (results : List β)
  | finished (results : List β)
  | failed

structure Pool (β : Type) where
  nextIndex : Nat
  workers : List (Worker β)
  /-- How many of the workers have been joined, in the order in which they were started. -/
  joined : Nat
  results : List (Option β)

namespace Pool

/-- What may happen next in some schedule. -/
inductive Move where
  | fetch (worker : Nat)
  | execute (worker : Nat)
  | fail (worker : Nat)
  | join

variable {α β : Type} (items : List α) (work : Nat → α → β) (position : β → Nat)

def start (count : Nat) : Pool β := ⟨0, List.replicate count (.running none []), 0, List.replicate items.length none⟩

/-- Files the results of a worker under their positions. -/
def merge (recorded : List (Option β)) (results : List β) : List (Option β) :=
  results.foldl (fun recorded result =>
    if position result < items.length then recorded.set (position result) (some result) else recorded) recorded

def step (pool : Pool β) : Move → Option (Pool β)
  | .fetch worker =>
      match pool.workers[worker]? with
      | some (.running none results) =>
          let next := if items.length ≤ pool.nextIndex then .finished results else .running (some pool.nextIndex) results
          some { pool with nextIndex := pool.nextIndex + 1, workers := pool.workers.set worker next }
      | _ => none
  | .execute worker =>
      match pool.workers[worker]? with
      | some (.running (some index) results) =>
          items[index]?.map fun item => { pool with workers := pool.workers.set worker (.running none (results ++ [work index item])) }
      | _ => none
  | .fail worker =>
      match pool.workers[worker]? with
      | some (.running _ _) => some { pool with workers := pool.workers.set worker .failed }
      | _ => none
  | .join =>
      match pool.workers[pool.joined]? with
      | some (.finished results) => some { pool with joined := pool.joined + 1, results := merge items position pool.results results }
      | some .failed => some { pool with joined := pool.joined + 1 }
      | _ => none

def run (pool : Pool β) : List Move → Option (Pool β)
  | [] => some pool
  | move :: moves => (pool.step items work position move).bind fun next => run next moves

/-- The results in the order of the items, with those that are missing worked out. -/
def collect (pool : Pool β) : List β :=
  (pool.results.zip items).zipIdx.map fun ((recorded, item), index) => recorded.getD (work index item)

/-! ### What every schedule preserves -/

/-- The result is that of the item at its position. -/
def Genuine (result : β) : Prop := ∃ item, items[position result]? = some item ∧ result = work (position result) item

end Pool

namespace Worker

variable {β : Type}

def kept : Worker β → List β
  | .running _ results | .finished results => results
  | .failed => []

def claim : Worker β → Option Nat
  | .running claimed _ => claimed
  | _ => none

/-- Whether the worker has read the counter behind the last position. -/
def stopped : Worker β → Nat
  | .finished _ => 1
  | _ => 0

/-- The steps that the worker takes if it takes no further position. -/
def due : Worker β → Nat
  | .running none _ => 1
  | .running (some _) _ => 2
  | _ => 0

end Worker

theorem sum_map_set {α : Type} (measure : α → Nat) {items : List α} {index : Nat} {old : α} (found : items[index]? = some old)
    (new : α) : ((items.set index new).map measure).sum + measure old = (items.map measure).sum + measure new := by
  induction items generalizing index with
  | nil => simp at found
  | cons item items ih =>
    cases index with
    | zero =>
      simp only [List.getElem?_cons_zero, Option.some.injEq] at found
      simp only [set_cons_zero, map_cons, sum_cons, found]
      omega
    | succ index =>
      have rest := ih found
      simp only [set_cons_succ, map_cons, sum_cons]
      omega

namespace Pool

variable {α β : Type} (items : List α) (work : Nat → α → β) (position : β → Nat)

structure Sound (pool : Pool β) : Prop where
  size : pool.results.length = items.length
  filed : ∀ index result, pool.results[index]? = some (some result) → ∃ item, items[index]? = some item ∧ result = work index item
  kept : ∀ worker ∈ pool.workers, ∀ result ∈ worker.kept, Genuine items work position result
  claims : ∀ worker ∈ pool.workers, ∀ index ∈ worker.claim, index < items.length
  counter : pool.nextIndex ≤ items.length + (pool.workers.map Worker.stopped).sum
  reached : pool.joined ≤ pool.workers.length

variable {items work position}

theorem sound_start (count : Nat) : (start items count : Pool β).Sound items work position where
  size := length_replicate
  filed := by
    intro index result found
    rw [start, List.getElem?_replicate] at found
    split at found <;> cases found
  kept := by
    intro worker member
    rw [eq_of_mem_replicate member]
    simp [Worker.kept]
  claims := by
    intro worker member
    rw [eq_of_mem_replicate member]
    simp [Worker.claim]
  counter := Nat.zero_le _
  reached := Nat.zero_le _

/-- A worker may be replaced by one that keeps genuine results and claims a position of the list. -/
theorem Sound.set {pool : Pool β} (sound : pool.Sound items work position) {index : Nat} {old new : Worker β} {nextIndex : Nat}
    (found : pool.workers[index]? = some old) (kept : ∀ result ∈ new.kept, Genuine items work position result)
    (claims : ∀ index ∈ new.claim, index < items.length) (counter : nextIndex + old.stopped ≤ max pool.nextIndex items.length + new.stopped) :
    Sound items work position { pool with nextIndex := nextIndex, workers := pool.workers.set index new } where
  size := sound.size
  filed := sound.filed
  kept := by
    intro worker member
    rcases mem_or_eq_of_mem_set member with before | rfl
    · exact sound.kept worker before
    · exact kept
  claims := by
    intro worker member
    rcases mem_or_eq_of_mem_set member with before | rfl
    · exact sound.claims worker before
    · exact claims
  counter := by
    have sum := sum_map_set Worker.stopped found new
    have bound := sound.counter
    simp only
    omega
  reached := by
    rw [length_set]
    exact sound.reached

theorem merge_filed {recorded : List (Option β)} (size : recorded.length = items.length)
    (filed : ∀ index result, recorded[index]? = some (some result) → ∃ item, items[index]? = some item ∧ result = work index item)
    {results : List β} (genuine : ∀ result ∈ results, Genuine items work position result) :
    (merge items position recorded results).length = items.length ∧
      ∀ index result, (merge items position recorded results)[index]? = some (some result) →
        ∃ item, items[index]? = some item ∧ result = work index item := by
  induction results generalizing recorded with
  | nil => exact ⟨size, filed⟩
  | cons result results ih =>
    obtain ⟨first, others⟩ := forall_mem_cons.mp genuine
    rw [merge, foldl_cons]
    apply ih _ _ others
    · split <;> simp [size]
    · intro index other found
      split at found
      next inside =>
        rw [List.getElem?_set] at found
        split at found
        next here =>
          subst here
          rw [if_pos (by omega)] at found
          cases found
          exact first
        next => exact filed index other found
      next => exact filed index other found

section

variable (placed : ∀ index item, position (work index item) = index)
include placed

theorem Sound.step {pool next : Pool β} {move : Move} (sound : pool.Sound items work position)
    (stepped : pool.step items work position move = some next) : next.Sound items work position := by
  cases move with
  | fetch worker =>
    simp only [Pool.step] at stepped
    split at stepped
    next results found =>
      cases stepped
      have genuine := sound.kept _ (mem_of_getElem? found)
      by_cases last : items.length ≤ pool.nextIndex
      · rw [if_pos last]
        exact sound.set found genuine (by simp [Worker.claim]) (by simp only [Worker.stopped]; omega)
      · rw [if_neg last]
        refine sound.set found genuine ?_ (by simp only [Worker.stopped]; omega)
        rintro index ⟨⟩
        omega
    next => cases stepped
  | execute worker =>
    simp only [Pool.step] at stepped
    split at stepped
    next index results found =>
      obtain ⟨item, at_index, rfl⟩ := Option.map_eq_some_iff.mp stepped
      have member := mem_of_getElem? found
      refine sound.set found ?_ (by simp [Worker.claim]) (by simp only [Worker.stopped]; omega)
      intro result among
      rcases mem_append.mp among with before | now
      · exact sound.kept _ member result before
      · rw [mem_singleton] at now
        subst now
        exact ⟨item, by rw [placed, at_index], by rw [placed]⟩
    next => cases stepped
  | fail worker =>
    simp only [Pool.step] at stepped
    split at stepped
    next claimed results found =>
      cases stepped
      exact sound.set found (by simp [Worker.kept]) (by simp [Worker.claim]) (by simp only [Worker.stopped]; omega)
    next => cases stepped
  | join =>
    simp only [Pool.step] at stepped
    split at stepped
    next results found =>
      cases stepped
      obtain ⟨size, filed⟩ := merge_filed sound.size sound.filed (sound.kept _ (mem_of_getElem? found))
      exact ⟨size, filed, sound.kept, sound.claims, sound.counter, (List.getElem?_eq_some_iff.mp found).1⟩
    next found =>
      cases stepped
      exact ⟨sound.size, sound.filed, sound.kept, sound.claims, sound.counter, (List.getElem?_eq_some_iff.mp found).1⟩
    next => cases stepped

theorem Sound.run {pool last : Pool β} {moves : List Move} (sound : pool.Sound items work position)
    (ran : pool.run items work position moves = some last) : last.Sound items work position := by
  induction moves generalizing pool with
  | nil =>
    cases ran
    exact sound
  | cons move moves ih =>
    obtain ⟨next, stepped, later⟩ := Option.bind_eq_some_iff.mp ran
    exact ih (sound.step placed stepped) later

end

/-- The counter passes the last position once for each worker at most. -/
theorem Sound.nextIndex_le {pool : Pool β} (sound : pool.Sound items work position) : pool.nextIndex ≤ items.length + pool.workers.length := by
  have stops : ∀ workers : List (Worker β), (workers.map Worker.stopped).sum ≤ workers.length := by
    intro workers
    induction workers with
    | nil => simp
    | cons worker workers ih =>
      have once : worker.stopped ≤ 1 := by
        cases worker <;> simp [Worker.stopped]
      simp only [map_cons, sum_cons, length_cons]
      omega
  have bound := sound.counter
  have stopped := stops pool.workers
  omega

/-- What is collected is what one pass over the items yields, whichever results are there. -/
theorem Sound.collect_eq {pool : Pool β} (sound : pool.Sound items work position) :
    pool.collect items work = items.zipIdx.map fun (item, index) => work index item := by
  apply ext_getElem
  · simp [collect, sound.size]
  · intro index inside within
    have bound : index < items.length := by simpa using within
    have reach : index < pool.results.length := by
      rw [sound.size]
      exact bound
    simp only [collect, getElem_map, getElem_zipIdx, getElem_zip, Nat.zero_add]
    cases recorded : pool.results[index] with
    | none => rfl
    | some result =>
      obtain ⟨item, found, same⟩ := sound.filed index result (by rw [List.getElem?_eq_getElem reach, recorded])
      rw [List.getElem?_eq_getElem bound, Option.some.injEq] at found
      rw [Option.getD_some, same, found]

/-! ### How long a schedule can be -/

/-- An upper bound of the steps that are left. -/
def remaining (items : List α) (pool : Pool β) : Nat :=
  2 * (items.length - pool.nextIndex) + (pool.workers.map Worker.due).sum + (pool.workers.length - pool.joined)

theorem step_remaining {pool next : Pool β} {move : Move} (stepped : pool.step items work position move = some next) :
    next.remaining items < pool.remaining items ∧ next.workers.length = pool.workers.length := by
  cases move with
  | fetch worker =>
    simp only [Pool.step] at stepped
    split at stepped
    next results found =>
      cases stepped
      refine ⟨?_, length_set⟩
      by_cases last : items.length ≤ pool.nextIndex
      · have sum := sum_map_set Worker.due found (.finished results)
        simp only [remaining, if_pos last, Worker.due, length_set] at sum ⊢
        omega
      · have sum := sum_map_set Worker.due found (.running (some pool.nextIndex) results)
        simp only [remaining, if_neg last, Worker.due, length_set] at sum ⊢
        omega
    next => cases stepped
  | execute worker =>
    simp only [Pool.step] at stepped
    split at stepped
    next index results found =>
      obtain ⟨item, -, rfl⟩ := Option.map_eq_some_iff.mp stepped
      have sum := sum_map_set Worker.due found (.running none (results ++ [work index item]))
      refine ⟨?_, length_set⟩
      simp only [remaining, Worker.due, length_set] at sum ⊢
      omega
    next => cases stepped
  | fail worker =>
    simp only [Pool.step] at stepped
    split at stepped
    next claimed results found =>
      cases stepped
      have sum := sum_map_set Worker.due found .failed
      refine ⟨?_, length_set⟩
      have positive : 1 ≤ Worker.due (.running claimed results) := by
        cases claimed <;> simp [Worker.due]
      have none : Worker.due (.failed : Worker β) = 0 := rfl
      simp only [remaining, length_set]
      omega
    next => cases stepped
  | join =>
    simp only [Pool.step] at stepped
    split at stepped
    next found =>
      cases stepped
      have waiting := (List.getElem?_eq_some_iff.mp found).1
      refine ⟨?_, rfl⟩
      simp only [remaining]
      omega
    next found =>
      cases stepped
      have waiting := (List.getElem?_eq_some_iff.mp found).1
      refine ⟨?_, rfl⟩
      simp only [remaining]
      omega
    next => cases stepped

theorem run_length {pool last : Pool β} {moves : List Move} (ran : pool.run items work position moves = some last) :
    moves.length + last.remaining items ≤ pool.remaining items ∧ last.workers.length = pool.workers.length := by
  induction moves generalizing pool with
  | nil =>
    cases ran
    exact ⟨by simp, rfl⟩
  | cons move moves ih =>
    obtain ⟨next, stepped, later⟩ := Option.bind_eq_some_iff.mp ran
    obtain ⟨less, same⟩ := step_remaining stepped
    obtain ⟨rest, sameToo⟩ := ih later
    rw [length_cons]
    exact ⟨by omega, sameToo.trans same⟩

/-- As long as a worker is not joined, something can happen. -/
theorem Sound.progress {pool : Pool β} (sound : pool.Sound items work position) (waiting : pool.joined < pool.workers.length) :
    ∃ move next, pool.step items work position move = some next := by
  have found := List.getElem?_eq_getElem waiting
  rcases shape : pool.workers[pool.joined] with ⟨_ | index, results⟩ | results | _
  · exact ⟨.fetch pool.joined, _, by rw [Pool.step, found, shape]⟩
  · have bound := sound.claims _ (getElem_mem waiting) index (by rw [shape]; rfl)
    exact ⟨.execute pool.joined, _, by rw [Pool.step, found, shape]; simp only [List.getElem?_eq_getElem bound, Option.map_some]; rfl⟩
  · exact ⟨.join, _, by rw [Pool.step, found, shape]⟩
  · exact ⟨.join, _, by rw [Pool.step, found, shape]⟩

theorem run_append (pool : Pool β) (first second : List Move) :
    pool.run items work position (first ++ second) = (pool.run items work position first).bind fun next => next.run items work position second := by
  induction first generalizing pool with
  | nil => rfl
  | cons move moves ih =>
    simp only [cons_append, Pool.run, Option.bind_assoc, ih]

/-- Every schedule can be carried on until all workers are joined. -/
theorem Sound.completes (placed : ∀ index item, position (work index item) = index) {pool : Pool β} (sound : pool.Sound items work position) :
    ∃ moves last, pool.run items work position moves = some last ∧ last.joined = last.workers.length := by
  -- The bound on the steps that are left decreases with every step.
  induction left : pool.remaining items using Nat.strongRecOn generalizing pool with
  | ind bound ih =>
    subst left
    by_cases done : pool.joined = pool.workers.length
    · exact ⟨[], pool, rfl, done⟩
    · obtain ⟨move, next, stepped⟩ := sound.progress (Nat.lt_of_le_of_ne sound.reached done)
      obtain ⟨moves, last, ran, joined⟩ := ih _ (step_remaining stepped).1 (sound.step placed stepped) rfl
      exact ⟨move :: moves, last, by rw [Pool.run, stepped, Option.bind_some, ran], joined⟩

end Pool

end Retonr
