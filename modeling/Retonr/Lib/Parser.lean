import Mathlib

/-! Programs that consume input and may fail, and rules for what they read. A run is described
by what a successful one consumed, as a relation between where it started, its result and the
consumed items; an invariant of the state holds after every run, and faults stay in an allowed set. -/

namespace Retonr

abbrev Parser (σ ε : Type) := ExceptT ε (StateM σ)

namespace Parser

variable {σ ε α β ι : Type}

def start (parser : Parser σ ε α) (state : σ) : Except ε α × σ := parser.run.run state

def require (condition : Prop) [Decidable condition] (fault : ε) : Parser σ ε Unit :=
  if condition then pure () else throw fault

/-- A fallible computation that does not touch the input. -/
def lift (result : Except ε α) : Parser σ ε α :=
  match result with
  | .ok value => pure value
  | .error fault => throw fault

def repeatM (step : α → Parser σ ε α) : Nat → α → Parser σ ε α
  | 0, value => pure value
  | count + 1, value => do
      let next ← step value
      repeatM step count next

@[simp] theorem start_pure (value : α) (state : σ) : (pure value : Parser σ ε α).start state = (.ok value, state) := rfl

@[simp] theorem start_throw (fault : ε) (state : σ) : (throw fault : Parser σ ε α).start state = (.error fault, state) := rfl

theorem start_require (condition : Prop) [Decidable condition] (fault : ε) (state : σ) :
    (require condition fault : Parser σ ε Unit).start state = (if condition then .ok () else .error fault, state) := by
  unfold require
  split <;> rfl

theorem start_bind (parser : Parser σ ε α) (next : α → Parser σ ε β) (state : σ) :
    (parser >>= next).start state = match parser.start state with
      | (.ok value, state) => (next value).start state
      | (.error fault, state) => (.error fault, state) := by
  simp only [start, ExceptT.run_bind, StateT.run_bind]
  rcases parser.run.run state with ⟨_ | _, _⟩ <;> rfl

/-- What runs have to respect: how much of the input is consumed, what holds between runs, and which
faults may end one. -/
structure Discipline (σ ε ι : Type) where
  consumed : σ → List ι
  inv : σ → Prop
  allowed : ε → Prop

/-- Every run from a state with the invariant keeps it; a successful one has consumed items that the
grammar relates to the result and to how much had been consumed before. -/
structure Reads (discipline : Discipline σ ε ι) (parser : Parser σ ε α) (grammar : Nat → α → List ι → Prop) : Prop where
  keeps : ∀ state, discipline.inv state → discipline.inv (parser.start state).2
  fails : ∀ state, discipline.inv state → ∀ fault, (parser.start state).1 = .error fault → discipline.allowed fault
  reads : ∀ state, discipline.inv state → ∀ value, (parser.start state).1 = .ok value →
    ∃ items, discipline.consumed (parser.start state).2 = discipline.consumed state ++ items ∧
      grammar (discipline.consumed state).length value items

namespace Reads

variable {discipline : Discipline σ ε ι} {grammar : Nat → α → List ι → Prop}

theorem mono {parser : Parser σ ε α} (known : Reads discipline parser grammar) {wider : Nat → α → List ι → Prop}
    (implies : ∀ offset value items, grammar offset value items → wider offset value items) : Reads discipline parser wider where
  keeps := known.keeps
  fails := known.fails
  reads state inv value done := by
    obtain ⟨items, consumed, holds⟩ := known.reads state inv value done
    exact ⟨items, consumed, implies _ _ _ holds⟩

theorem pure {value : α} (holds : ∀ offset, grammar offset value []) : Reads discipline (pure value) grammar where
  keeps _ inv := inv
  fails _ _ _ failed := by cases failed
  reads state _ other done := by
    cases done
    exact ⟨[], by simp, holds _⟩

theorem throw {fault : ε} (allowed : discipline.allowed fault) : Reads discipline (throw fault : Parser σ ε α) grammar where
  keeps _ inv := inv
  fails _ _ other failed := by
    cases failed
    exact allowed
  reads _ _ _ done := by cases done

theorem require {condition : Prop} [Decidable condition] {fault : ε} (allowed : discipline.allowed fault) :
    Reads discipline (require condition fault) fun _ _ items => items = [] ∧ condition := by
  unfold Parser.require
  split
  next holds => exact .pure fun _ => ⟨rfl, holds⟩
  · exact .throw allowed

theorem lift {result : Except ε α} (allowed : ∀ fault, result = .error fault → discipline.allowed fault) :
    Reads discipline (lift result) fun _ value items => items = [] ∧ result = .ok value := by
  cases result with
  | ok value => exact .pure fun _ => ⟨rfl, rfl⟩
  | error fault => exact .throw (allowed fault rfl)

/-- The rule for a sequence: what the first part has read is a fact about everything after it. -/
theorem bind_of {parser : Parser σ ε α} {next : α → Parser σ ε β} {after : Nat → β → List ι → Prop} (first : Reads discipline parser grammar)
    (second : ∀ value, (∃ start items, grammar start value items) → Reads discipline (next value) fun offset result more =>
      ∀ start items, offset = start + items.length → grammar start value items → after start result (items ++ more)) :
    Reads discipline (parser >>= next) after := by
  constructor
  · intro state inv
    rw [start_bind]
    have kept := first.keeps state inv
    have read := first.reads state inv
    generalize parser.start state = run at kept read ⊢
    obtain ⟨_ | value, between⟩ := run
    · exact kept
    · obtain ⟨items, -, holds⟩ := read value rfl
      exact (second value ⟨_, items, holds⟩).keeps between kept
  · intro state inv fault failed
    rw [start_bind] at failed
    have kept := first.keeps state inv
    have allowed := first.fails state inv
    have read := first.reads state inv
    generalize parser.start state = run at kept allowed read failed
    obtain ⟨_ | value, between⟩ := run
    · cases failed
      exact allowed fault rfl
    · obtain ⟨items, -, holds⟩ := read value rfl
      exact (second value ⟨_, items, holds⟩).fails between kept fault failed
  · intro state inv result done
    rw [start_bind] at done ⊢
    have kept := first.keeps state inv
    have read := first.reads state inv
    generalize parser.start state = run at kept read done ⊢
    obtain ⟨_ | value, between⟩ := run
    · cases done
    · obtain ⟨items, consumed, holds⟩ := read value rfl
      obtain ⟨more, further, follows⟩ := (second value ⟨_, items, holds⟩).reads between kept result done
      simp only at consumed
      rw [consumed, List.append_assoc] at further
      rw [consumed, List.length_append] at follows
      exact ⟨items ++ more, further, follows _ _ rfl holds⟩

/-- The rule for a sequence whose second part keeps to the discipline whatever the first one gave. -/
theorem bind {parser : Parser σ ε α} {next : α → Parser σ ε β} {after : Nat → β → List ι → Prop} (first : Reads discipline parser grammar)
    (second : ∀ value, Reads discipline (next value) fun offset result more => ∀ start items,
      offset = start + items.length → grammar start value items → after start result (items ++ more)) :
    Reads discipline (parser >>= next) after :=
  first.bind_of fun value _ => second value

/-- The rule for a loop: what holds of the rounds so far, where they started and what they consumed
is kept by each round. -/
theorem repeatM {step : α → Parser σ ε α} (rounds : Nat → Nat → α → List ι → Prop) (count : Nat) {value : α}
    (start : ∀ offset, rounds 0 offset value [])
    (round : ∀ index value, index < count → Reads discipline (step value) fun offset next items => ∀ first before,
      offset = first + before.length → rounds index first value before → rounds (index + 1) first next (before ++ items)) :
    Reads discipline (Parser.repeatM step count value) (rounds count) := by
  have general : ∀ left index value, index + left = count →
      Reads discipline (Parser.repeatM step left value) fun offset result items => ∀ first before,
        offset = first + before.length → rounds index first value before → rounds count first result (before ++ items) := by
    intro left
    induction left with
    | zero =>
      rintro index value rfl
      exact .pure fun _ first before _ holds => by simpa using holds
    | succ left ih =>
      intro index value total
      refine bind (round index value (by omega)) fun next => (ih (index + 1) next (by omega)).mono ?_
      intro offset result more later start items here round first before starts holds
      have there := later first (before ++ items) (by simp; omega) (round first before starts holds)
      rwa [List.append_assoc] at there
  refine (general count 0 value (by omega)).mono fun offset result items holds => ?_
  simpa using holds offset [] (by simp) (start offset)

end Reads

end Parser

end Retonr
