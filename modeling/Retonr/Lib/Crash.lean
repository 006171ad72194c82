import Mathlib

/-! Programs whose calls may fail and whose process may stop at any call, and a logic for
them: a contract has an invariant that holds wherever the process stops and a guarantee that
every change of the state keeps. -/

namespace Retonr.Crash
open List

/-- What befalls one call. A call that is not atomic can fail or be cut short after part of its effect. -/
inductive Fate where
  | succeeds
  | fails (reach : Nat)
  | stops (reach : Nat)

/-- The fate of each call, then success; the answer to each poll, then no. -/
structure Script where
  fates : List Fate
  signals : List Bool

inductive Ending (ε α : Type) where
  | done (result : Except ε α)
  | stopped

/-- How a program ended, what it left of the script, and the state changes it made on the way. -/
structure Run (σ ε α : Type) where
  ending : Ending ε α
  rest : Script
  changes : List (σ × σ)
  final : σ

def Program (σ ε α : Type) := Script → σ → Run σ ε α

namespace Program

variable {σ ε δ α β : Type}

def done (result : Except ε α) : Program σ ε α := fun script state => ⟨.done result, script, [], state⟩

def bind (first : Program σ ε α) (next : α → Program σ ε β) : Program σ ε β := fun script state =>
  let run := first script state
  match run.ending with
  | .done (.ok value) =>
      let following := next value run.rest run.final
      ⟨following.ending, following.rest, run.changes ++ following.changes, following.final⟩
  | .done (.error fault) => ⟨.done (.error fault), run.rest, run.changes, run.final⟩
  | .stopped => ⟨.stopped, run.rest, run.changes, run.final⟩

instance : Monad (Program σ ε) where
  pure value := done (.ok value)
  bind := bind

def raise (fault : ε) : Program σ ε α := done (.error fault)

/-- The result as a value, so that the program can go on after a failure. -/
def attempt (program : Program σ ε α) : Program σ δ (Except ε α) := fun script state =>
  let run := program script state
  match run.ending with
  | .done result => ⟨.done (.ok result), run.rest, run.changes, run.final⟩
  | .stopped => ⟨.stopped, run.rest, run.changes, run.final⟩

def mapError (convert : ε → δ) (program : Program σ ε α) : Program σ δ α :=
  program.attempt >>= fun result => done (result.mapError convert)

def require (condition : Prop) [Decidable condition] (fault : ε) : Program σ ε Unit :=
  if condition then done (.ok ()) else raise fault

/-- A call that changes the state. When it does not succeed it leaves what `torn` makes of the state. -/
def call (fault : ε) (torn : Nat → σ → σ) (effect : σ → Except ε (α × σ)) : Program σ ε α := fun script state =>
  match script.fates with
  | .fails reach :: fates => ⟨.done (.error fault), { script with fates }, [(state, torn reach state)], torn reach state⟩
  | .stops reach :: fates => ⟨.stopped, { script with fates }, [(state, torn reach state)], torn reach state⟩
  | fates =>
      match effect state with
      | .ok (value, next) => ⟨.done (.ok value), { script with fates := fates.tail }, [(state, next)], next⟩
      | .error other => ⟨.done (.error other), { script with fates := fates.tail }, [], state⟩

/-- A call that takes effect whole or not at all. -/
def atomic (fault : ε) (effect : σ → Except ε (α × σ)) : Program σ ε α := call fault (fun _ state => state) effect

def query (fault : ε) (read : σ → Except ε α) : Program σ ε α := fun script state =>
  match script.fates with
  | .fails _ :: fates => ⟨.done (.error fault), { script with fates }, [], state⟩
  | .stops _ :: fates => ⟨.stopped, { script with fates }, [], state⟩
  | fates => ⟨.done (read state), { script with fates := fates.tail }, [], state⟩

def poll : Program σ ε Bool := fun script state =>
  ⟨.done (.ok (script.signals.headD false)), { script with signals := script.signals.tail }, [], state⟩

end Program

/-- What the environment may do to a program, and what the program owes in return. -/
structure Contract (σ : Type) where
  admits : Fate → Prop
  invariant : σ → Prop
  guarantee : σ → σ → Prop

namespace Contract

variable {σ : Type}

def Faulty (contract : Contract σ) : Prop := ∃ reach, contract.admits (.fails reach)

def Fragile (contract : Contract σ) : Prop := ∃ reach, contract.admits (.stops reach)

def Plays (contract : Contract σ) (script : Script) : Prop := ∀ fate ∈ script.fates, contract.admits fate

/-- Anything may happen, and the program keeps the invariant and the guarantee. -/
def hostile (invariant : σ → Prop) (guarantee : σ → σ → Prop) : Contract σ := ⟨fun _ => True, invariant, guarantee⟩

/-- Anything may happen, and the program keeps the invariant. -/
def keeping (invariant : σ → Prop) : Contract σ := hostile invariant fun _ _ => True

/-- Every call succeeds, and nothing is asked of the states on the way. -/
def calm : Contract σ := ⟨fun fate => fate = .succeeds, fun _ => True, fun _ _ => True⟩

theorem not_faulty_calm : ¬ (calm : Contract σ).Faulty := by
  intro ⟨_, admitted⟩
  cases admitted

theorem not_fragile_calm : ¬ (calm : Contract σ).Fragile := by
  intro ⟨_, admitted⟩
  cases admitted

end Contract

namespace Run

variable {σ ε α : Type}

/-- The run kept its part of the contract, and ended as the postcondition says unless it was stopped. -/
structure Keeps (contract : Contract σ) (run : Run σ ε α) (post : Except ε α → σ → Prop) : Prop where
  invariant : contract.invariant run.final
  changes : ∀ change ∈ run.changes, contract.invariant change.2 ∧ contract.guarantee change.1 change.2
  rest : contract.Plays run.rest
  ending : match run.ending with
    | .done result => post result run.final
    | .stopped => contract.Fragile

end Run

namespace Program

variable {σ ε δ α β : Type} {contract : Contract σ} {state : σ}

/-- Every run from the state keeps the contract. -/
def Meets (contract : Contract σ) (program : Program σ ε α) (state : σ) (post : Except ε α → σ → Prop) : Prop :=
  ∀ script, contract.Plays script → (program script state).Keeps contract post

variable {program : Program σ ε α} {post : Except ε α → σ → Prop}

theorem Meets.mono {weaker : Except ε α → σ → Prop} (meets : program.Meets contract state post)
    (implies : ∀ result after, contract.invariant after → post result after → weaker result after) : program.Meets contract state weaker := by
  intro script plays
  obtain ⟨invariant, changes, rest, ending⟩ := meets script plays
  refine ⟨invariant, changes, rest, ?_⟩
  cases same : (program script state).ending with
  | done result =>
    rw [same] at ending
    exact implies result _ invariant ending
  | stopped =>
    rw [same] at ending
    exact ending

theorem meets_done {result : Except ε α} (invariant : contract.invariant state)
    (holds : post result state) : (done result : Program σ ε α).Meets contract state post := by
  intro script plays
  exact ⟨invariant, by simp [done], plays, holds⟩

theorem meets_pure {value : α} (invariant : contract.invariant state)
    (holds : post (.ok value) state) : (pure value : Program σ ε α).Meets contract state post :=
  meets_done invariant holds

variable {fault : ε}

theorem meets_raise (invariant : contract.invariant state)
    (holds : post (.error fault) state) : (raise fault : Program σ ε α).Meets contract state post :=
  meets_done invariant holds

variable {first : Program σ ε α} {next : α → Program σ ε β}

/-- The rest of the program is judged in the state its first part leaves. -/
theorem meets_bind {post : Except ε β → σ → Prop} (meets : first.Meets contract state fun result after => match result with
      | .ok value => (next value).Meets contract after post | .error fault => post (.error fault) after) :
    (first >>= next).Meets contract state post := by
  intro script plays
  obtain ⟨invariant, changes, rest, ending⟩ := meets script plays
  have unfolded : (first >>= next) script state = first.bind next script state := rfl
  rw [unfolded, Program.bind]
  cases same : (first script state).ending with
  | stopped =>
    rw [same] at ending
    exact ⟨invariant, changes, rest, ending⟩
  | done result =>
    rw [same] at ending
    cases result with
    | error fault => exact ⟨invariant, changes, rest, ending⟩
    | ok value =>
      obtain ⟨last, more, remaining, finish⟩ := ending (first script state).rest rest
      refine ⟨last, ?_, remaining, finish⟩
      intro change member
      rcases mem_append.mp member with early | late
      · exact changes change early
      · exact more change late

theorem meets_attempt {post : Except δ (Except ε α) → σ → Prop}
    (meets : program.Meets contract state fun result after => post (.ok result) after) :
    (program.attempt : Program σ δ (Except ε α)).Meets contract state post := by
  intro script plays
  obtain ⟨invariant, changes, rest, ending⟩ := meets script plays
  rw [attempt]
  cases same : (program script state).ending with
  | stopped =>
    rw [same] at ending
    exact ⟨invariant, changes, rest, ending⟩
  | done result =>
    rw [same] at ending
    exact ⟨invariant, changes, rest, ending⟩

variable {convert : ε → δ}

theorem meets_mapError {post : Except δ α → σ → Prop}
    (meets : program.Meets contract state fun result after => post (result.mapError convert) after) :
    (program.mapError convert).Meets contract state post := by
  apply meets_bind
  apply meets_attempt
  exact meets.mono fun result after invariant holds => meets_done invariant holds

variable {condition : Prop}

theorem meets_require [Decidable condition] {post : Except ε Unit → σ → Prop}
    (invariant : contract.invariant state) (holds : condition → post (.ok ()) state)
    (fails : ¬ condition → post (.error fault) state) : (require condition fault).Meets contract state post := by
  rw [require]
  split
  next satisfied => exact meets_done invariant (holds satisfied)
  next violated => exact meets_raise invariant (fails violated)

theorem meets_poll {post : Except ε Bool → σ → Prop} (invariant : contract.invariant state)
    (holds : ∀ answer, post (.ok answer) state) : (poll : Program σ ε Bool).Meets contract state post := by
  intro script plays
  exact ⟨invariant, by simp [poll], plays, holds _⟩

variable {read : σ → Except ε α}

theorem meets_query (invariant : contract.invariant state)
    (fails : contract.Faulty → post (.error fault) state) (holds : post (read state) state) : (query fault read).Meets contract state post := by
  intro script plays
  simp only [query]
  split
  next reach fates same =>
    simp only [Contract.Plays, same, forall_mem_cons] at plays
    exact ⟨invariant, by simp, plays.2, fails ⟨reach, plays.1⟩⟩
  next reach fates same =>
    simp only [Contract.Plays, same, forall_mem_cons] at plays
    exact ⟨invariant, by simp, plays.2, ⟨reach, plays.1⟩⟩
  · exact ⟨invariant, by simp, fun fate member => plays fate (mem_of_mem_tail member), holds⟩

variable {effect : σ → Except ε (α × σ)}

theorem meets_call {torn : Nat → σ → σ} (cut : ∀ reach, contract.admits (.fails reach) ∨ contract.admits (.stops reach) →
      contract.invariant (torn reach state) ∧ contract.guarantee state (torn reach state))
    (fails : ∀ reach, contract.admits (.fails reach) → post (.error fault) (torn reach state))
    (holds : ∀ value next, effect state = .ok (value, next) → contract.invariant next ∧ contract.guarantee state next ∧ post (.ok value) next)
    (refuses : ∀ other, effect state = .error other → contract.invariant state ∧ post (.error other) state) :
    (call fault torn effect).Meets contract state post := by
  intro script plays
  simp only [call]
  split
  next reach fates same =>
    simp only [Contract.Plays, same, forall_mem_cons] at plays
    obtain ⟨invariant, guarantee⟩ := cut reach (.inl plays.1)
    exact ⟨invariant, by simpa using ⟨invariant, guarantee⟩, plays.2, fails reach plays.1⟩
  next reach fates same =>
    simp only [Contract.Plays, same, forall_mem_cons] at plays
    obtain ⟨invariant, guarantee⟩ := cut reach (.inr plays.1)
    exact ⟨invariant, by simpa using ⟨invariant, guarantee⟩, plays.2, ⟨reach, plays.1⟩⟩
  · have rest : contract.Plays { script with fates := script.fates.tail } := fun fate member =>
      plays fate (mem_of_mem_tail member)
    split
    next value next same =>
      obtain ⟨invariant, guarantee, finish⟩ := holds value next same
      exact ⟨invariant, by simpa using ⟨invariant, guarantee⟩, rest, finish⟩
    next other same =>
      obtain ⟨invariant, finish⟩ := refuses other same
      exact ⟨invariant, by simp, rest, finish⟩

/-- An atomic call is judged by what it does when it takes place. -/
theorem meets_atomic (invariant : contract.invariant state) (stays : contract.guarantee state state)
    (fails : contract.Faulty → post (.error fault) state) (holds : ∀ value next, effect state = .ok (value, next) →
      contract.invariant next ∧ contract.guarantee state next ∧ post (.ok value) next)
    (refuses : ∀ other, effect state = .error other → post (.error other) state) : (atomic fault effect).Meets contract state post :=
  meets_call (fun _ _ => ⟨invariant, stays⟩) (fun reach admitted => fails ⟨reach, admitted⟩) holds
    (fun other same => ⟨invariant, refuses other same⟩)

/-- Without faults a program that meets its specification ends with a result. -/
theorem Meets.completes (meets : program.Meets .calm state post)
    (signals : List Bool) : ∃ result, (program ⟨[], signals⟩ state).ending = .done result ∧ post result (program ⟨[], signals⟩ state).final := by
  obtain ⟨_, _, _, ending⟩ := meets ⟨[], signals⟩ (by simp [Contract.Plays])
  cases same : (program ⟨[], signals⟩ state).ending with
  | done result =>
    rw [same] at ending
    exact ⟨result, rfl, ending⟩
  | stopped =>
    rw [same] at ending
    exact absurd ending Contract.not_fragile_calm

/-- From this state the program only looks, and what it answers is one of the facts. -/
def Observes (contract : Contract σ) (program : Program σ ε α) (state : σ) (facts : Except ε α → Prop) : Prop :=
  contract.invariant state → program.Meets contract state fun result after => after = state ∧ facts result

variable {facts : Except ε α → Prop}

theorem Observes.mono {wider : Except ε α → Prop} (observes : program.Observes contract state facts)
    (implies : ∀ result, facts result → wider result) : program.Observes contract state wider := by
  intro invariant
  refine (observes invariant).mono ?_
  intro result after _ answer
  exact ⟨answer.1, implies result answer.2⟩

theorem observes_done {result : Except ε α} (holds : facts result) : (done result : Program σ ε α).Observes contract state facts :=
  fun invariant => meets_done invariant ⟨rfl, holds⟩

theorem observes_pure {value : α} (holds : facts (.ok value)) : (pure value : Program σ ε α).Observes contract state facts := observes_done holds

theorem observes_raise (holds : facts (.error fault)) : (raise fault : Program σ ε α).Observes contract state facts := observes_done holds

theorem observes_require [Decidable condition] {facts : Except ε Unit → Prop}
    (holds : condition → facts (.ok ())) (fails : ¬ condition → facts (.error fault)) :
    (require condition fault : Program σ ε Unit).Observes contract state facts :=
  fun invariant => meets_require invariant (fun satisfied => ⟨rfl, holds satisfied⟩) fun violated => ⟨rfl, fails violated⟩

theorem observes_poll {facts : Except ε Bool → Prop} (holds : ∀ signal, facts (.ok signal)) :
    (poll : Program σ ε Bool).Observes contract state facts :=
  fun invariant => meets_poll invariant fun signal => ⟨rfl, holds signal⟩

theorem observes_query (fails : contract.Faulty → facts (.error fault)) (holds : facts (read state)) :
    (query fault read).Observes contract state facts :=
  fun invariant => meets_query invariant (fun faulty => ⟨rfl, fails faulty⟩) ⟨rfl, holds⟩

theorem observes_attempt {facts : Except δ (Except ε α) → Prop} (observes : program.Observes contract state fun result => facts (.ok result)) :
    (program.attempt : Program σ δ (Except ε α)).Observes contract state facts :=
  fun invariant => meets_attempt (observes invariant)

theorem observes_mapError {facts : Except δ α → Prop}
    (observes : program.Observes contract state fun result => facts (result.mapError convert)) :
    (program.mapError convert).Observes contract state facts :=
  fun invariant => meets_mapError (observes invariant)

theorem Observes.mapError (observes : program.Observes contract state facts) :
    (program.mapError convert).Observes contract state fun answer => ∀ value, answer = .ok value → facts (.ok value) := by
  refine observes_mapError (observes.mono ?_)
  intro result fact value same
  cases result with
  | ok found =>
    cases same
    exact fact
  | error fault => cases same

/-- A program that begins by looking at the state goes on in the same state. -/
theorem meets_bind_observing {post : Except ε β → σ → Prop}
    (invariant : contract.invariant state) (observes : first.Observes contract state fun result => match result with
      | .ok value => (next value).Meets contract state post | .error fault => post (.error fault) state) :
    (first >>= next).Meets contract state post := by
  apply meets_bind
  refine (observes invariant).mono ?_
  intro result after _ answer
  obtain ⟨rfl, fact⟩ := answer
  cases result <;> exact fact

theorem observes_bind {following : Except ε β → Prop} (observes : first.Observes contract state fun result => match result with
      | .ok value => (next value).Observes contract state following | .error fault => following (.error fault)) :
    (first >>= next).Observes contract state following := by
  intro invariant
  refine meets_bind_observing invariant (observes.mono ?_)
  intro result fact
  cases result with
  | ok value => exact fact invariant
  | error fault => exact ⟨rfl, fact⟩

theorem Observes.meets_bind
    {post : Except ε β → σ → Prop} (observes : first.Observes contract state facts) (invariant : contract.invariant state)
    (holds : ∀ value, facts (.ok value) → (next value).Meets contract state post)
    (fails : ∀ fault, facts (.error fault) → post (.error fault) state) : (first >>= next).Meets contract state post := by
  refine meets_bind_observing invariant (observes.mono ?_)
  intro result fact
  cases result with
  | ok value => exact holds value fact
  | error fault => exact fails fault fact

theorem Observes.bind {following : Except ε β → Prop} (observes : first.Observes contract state facts)
    (rest : ∀ value, facts (.ok value) → (next value).Observes contract state following)
    (fails : ∀ fault, facts (.error fault) → following (.error fault)) : (first >>= next).Observes contract state following := by
  refine observes_bind (observes.mono ?_)
  intro result fact
  cases result with
  | ok value => exact rest value fact
  | error fault => exact fails fault fact

/-- The program only looks at the state, whatever it answers. -/
def ReadOnly (program : Program σ ε α) : Prop := ∀ contract state, program.Observes contract state fun _ => True

theorem readOnly_done {result : Except ε α} : (done result : Program σ ε α).ReadOnly := fun _ _ => observes_done trivial

theorem readOnly_require [Decidable condition] : (require condition fault : Program σ ε Unit).ReadOnly :=
  fun _ _ => observes_require (fun _ => trivial) fun _ => trivial

theorem readOnly_query : (query fault read).ReadOnly :=
  fun _ _ => observes_query (fun _ => trivial) trivial

theorem ReadOnly.mapError (reads : program.ReadOnly) : (program.mapError convert).ReadOnly :=
  fun contract state => observes_mapError (reads contract state)

theorem ReadOnly.bind (reads : first.ReadOnly) (rest : ∀ value, (next value).ReadOnly) : (first >>= next).ReadOnly := by
  intro contract state
  exact (reads contract state).bind (fun value _ => rest value contract state) fun _ _ => trivial

/-- A program that begins by only looking goes on in the same state. -/
theorem ReadOnly.meets_bind {post : Except ε β → σ → Prop} (reads : first.ReadOnly)
    (invariant : contract.invariant state) (holds : ∀ value, (next value).Meets contract state post)
    (fails : ∀ fault, post (.error fault) state) : (first >>= next).Meets contract state post :=
  (reads contract state).meets_bind invariant (fun value _ => holds value) fun fault _ => fails fault

/-- Every run keeps the contract, and a run that succeeds ends as the postcondition says. -/
def Upholds (contract : Contract σ) (program : Program σ ε α) (state : σ) (post : α → σ → Prop) : Prop :=
  program.Meets contract state fun result after => ∀ value, result = .ok value → post value after

theorem Upholds.mono {post weaker : α → σ → Prop} (upholds : program.Upholds contract state post)
    (implies : ∀ value after, contract.invariant after → post value after → weaker value after) : program.Upholds contract state weaker :=
  Meets.mono upholds fun _ after invariant holds value same => implies value after invariant (holds value same)

theorem upholds_pure {value : α} {post : α → σ → Prop} (invariant : contract.invariant state) (holds : post value state) :
    (pure value : Program σ ε α).Upholds contract state post := by
  refine meets_pure invariant ?_
  intro other same
  cases same
  exact holds

theorem upholds_raise {post : α → σ → Prop} (invariant : contract.invariant state) : (raise fault : Program σ ε α).Upholds contract state post :=
  meets_raise invariant fun _ failed => nomatch failed

theorem Observes.upholds (observes : program.Observes contract state facts)
    (invariant : contract.invariant state) : program.Upholds contract state fun value after => after = state ∧ facts (.ok value) := by
  refine (observes invariant).mono ?_
  intro result after _ answer value same
  exact ⟨answer.1, same ▸ answer.2⟩

/-- The rest of the program runs only when its first part succeeded. -/
theorem Upholds.bind {middle : α → σ → Prop} {post : β → σ → Prop} (upholds : first.Upholds contract state middle)
    (rest : ∀ value after, contract.invariant after → middle value after → (next value).Upholds contract after post) :
    (first >>= next).Upholds contract state post := by
  refine meets_bind (Meets.mono upholds ?_)
  intro result after invariant holds
  cases result with
  | ok value => exact rest value after invariant (holds value rfl)
  | error fault => exact fun _ failed => nomatch failed

theorem Observes.upholds_bind {post : β → σ → Prop} (observes : first.Observes contract state facts) (invariant : contract.invariant state)
    (rest : ∀ value, facts (.ok value) → (next value).Upholds contract state post) : (first >>= next).Upholds contract state post :=
  observes.meets_bind invariant rest fun _ _ _ failed => nomatch failed

theorem ReadOnly.upholds_bind {post : β → σ → Prop} (reads : first.ReadOnly)
    (invariant : contract.invariant state) (rest : ∀ value, (next value).Upholds contract state post) :
    (first >>= next).Upholds contract state post :=
  (reads contract state).upholds_bind invariant fun value _ => rest value

theorem ReadOnly.upholds {post : σ → Prop} (reads : program.ReadOnly) (invariant : contract.invariant state)
    (holds : post state) : program.Upholds contract state fun _ after => post after := by
  refine ((reads contract state).upholds invariant).mono ?_
  intro _ after _ answer
  exact answer.1 ▸ holds

theorem Upholds.mapError {post : α → σ → Prop} (upholds : program.Upholds contract state post) :
    (program.mapError convert).Upholds contract state post := by
  refine meets_mapError (Meets.mono upholds ?_)
  intro result after _ holds value same
  cases result with
  | ok found =>
    cases same
    exact holds value rfl
  | error fault => cases same

theorem upholds_call {torn : Nat → σ → σ} {post : α → σ → Prop} (invariant : contract.invariant state)
    (cut : ∀ reach, contract.invariant (torn reach state) ∧ contract.guarantee state (torn reach state))
    (holds : ∀ value next, effect state = .ok (value, next) → contract.invariant next ∧ contract.guarantee state next ∧ post value next) :
    (call fault torn effect).Upholds contract state post := by
  refine meets_call (fun reach _ => cut reach) (fun _ _ _ failed => nomatch failed) ?_ (fun _ _ => ⟨invariant, fun _ failed => nomatch failed⟩)
  intro value next done
  obtain ⟨kept, allowed, finish⟩ := holds value next done
  refine ⟨kept, allowed, ?_⟩
  intro other same
  cases same
  exact finish

theorem upholds_atomic {post : α → σ → Prop} (invariant : contract.invariant state) (stays : contract.guarantee state state)
    (holds : ∀ value next, effect state = .ok (value, next) → contract.invariant next ∧ contract.guarantee state next ∧ post value next) :
    (atomic fault effect).Upholds contract state post :=
  upholds_call invariant (fun _ => ⟨invariant, stays⟩) holds

theorem Upholds.attempt {post : α → σ → Prop} (upholds : program.Upholds contract state post) :
    (program.attempt : Program σ δ (Except ε α)).Upholds contract state fun result after => ∀ value, result = .ok value → post value after := by
  refine meets_attempt (Meets.mono upholds ?_)
  intro result after _ holds outcome same
  cases same
  exact holds

variable {after final : σ} {value : α} {result : Except ε α}

end Program

/-- The states a run passes through, the last first. -/
def Run.states {σ ε α : Type} (run : Run σ ε α) : List σ := run.final :: run.changes.map Prod.snd

theorem Program.Meets.states {σ ε α : Type} {contract : Contract σ} {program : Program σ ε α} {state : σ}
    {post : Except ε α → σ → Prop} (meets : program.Meets contract state post) {script : Script} (plays : contract.Plays script) :
    ∀ point ∈ (program script state).states, contract.invariant point := by
  obtain ⟨last, changes, _, _⟩ := meets script plays
  intro point member
  rcases mem_cons.mp member with rfl | earlier
  · exact last
  · obtain ⟨change, made, rfl⟩ := mem_map.mp earlier
    exact (changes change made).1

theorem Program.Meets.ended {σ ε α : Type} {contract : Contract σ} {program : Program σ ε α} {state : σ}
    {post : Except ε α → σ → Prop} (meets : program.Meets contract state post) {script : Script} (plays : contract.Plays script)
    {result : Except ε α} (ended : (program script state).ending = .done result) : post result (program script state).final := by
  have ending := (meets script plays).ending
  rw [ended] at ending
  exact ending

end Retonr.Crash
