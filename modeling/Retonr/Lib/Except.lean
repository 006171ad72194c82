import Mathlib

/-! Inversion of sequenced fallible computations, and the relation between two runs of one. -/

namespace Retonr

/-- The intermediate value of a check carries nothing. -/
@[simp] theorem exists_unit {p : Unit → Prop} : (∃ value, p value) ↔ p () := ⟨fun ⟨(), holds⟩ => holds, fun holds => ⟨(), holds⟩⟩

namespace Except

variable {ε δ α β : Type} {first : Except ε α} {result : β} {fault : ε} {items : List α} {function : α → β}

@[simp] theorem ok_bind (value : α) (next : α → Except ε β) : ((.ok value : Except ε α) >>= next) = next value := rfl

theorem bind_eq_ok {next : α → Except ε β} : (first >>= next) = .ok result ↔ ∃ value, first = .ok value ∧ next value = .ok result := by
  cases first <;> simp [bind, Except.bind]

theorem bind_eq_error {next : α → Except ε β} :
    (first >>= next) = .error fault ↔ first = .error fault ∨ ∃ value, first = .ok value ∧ next value = .error fault := by
  cases first <;> simp [bind, Except.bind]

def require (condition : Prop) [Decidable condition] (fault : ε) : Except ε Unit :=
  if condition then .ok () else .error fault

@[simp] theorem require_eq_ok {condition : Prop} [Decidable condition] {result : Unit} : require condition fault = .ok result ↔ condition := by
  simp [require]

@[simp] theorem require_eq_error {condition : Prop} [Decidable condition] {other : ε} :
    require condition fault = .error other ↔ ¬ condition ∧ fault = other := by
  by_cases holds : condition <;> simp [require, holds]

/-- A check of every element succeeds exactly when each check does. -/
theorem forM_eq_ok {check : α → Except ε Unit} : items.forM check = .ok () ↔ ∀ item ∈ items, check item = .ok () := by
  induction items with
  | nil => simp [pure, Except.pure]
  | cons item items ih =>
    rw [List.forall_mem_cons, ← ih]
    refine bind_eq_ok.trans ?_
    exact ⟨fun ⟨_, first, rest⟩ => ⟨first, rest⟩, fun ⟨first, rest⟩ => ⟨(), first, rest⟩⟩

theorem map_eq_ok : first.map function = .ok result ↔ ∃ value, first = .ok value ∧ function value = result := by
  cases first <;> simp [Except.map]

theorem mapError_eq_ok {convert : ε → δ} {result : α} : first.mapError convert = .ok result ↔ first = .ok result := by
  cases first <;> simp [Except.mapError]

theorem mapError_eq_error {convert : ε → δ} {fault : δ} :
    first.mapError convert = .error fault ↔ ∃ original, first = .error original ∧ convert original = fault := by
  cases first <;> simp [Except.mapError]

theorem mapM_eq_error {step : α → Except ε β} (failed : items.mapM step = .error fault) : ∃ item ∈ items, step item = .error fault := by
  induction items with
  | nil => cases failed
  | cons item items ih =>
    rw [List.mapM_cons] at failed
    rcases bind_eq_error.mp failed with first | ⟨value, _, rest⟩
    · exact ⟨item, by simp, first⟩
    rcases bind_eq_error.mp rest with later | ⟨values, _, impossible⟩
    · obtain ⟨other, member, found⟩ := ih later
      exact ⟨other, List.mem_cons_of_mem _ member, found⟩
    · cases impossible

theorem mapM_map_eq_ok {step : β → Except ε α} (encode : α → β)
    (each : ∀ item ∈ items, step (encode item) = .ok item) : (items.map encode).mapM step = .ok items := by
  induction items with
  | nil => rfl
  | cons item items ih =>
    rw [List.map_cons, List.mapM_cons, each item (by simp), ih fun other member => each other (by simp [member])]
    rfl

theorem mapM_eq_self {step : α → Except ε α} (each : ∀ item ∈ items, step item = .ok item) : items.mapM step = .ok items := by
  have kept := mapM_map_eq_ok id each
  rwa [List.map_id] at kept

theorem foldlM_push (image : α → β) (items : List α) (before : List β) :
    items.foldlM (fun list item => (.ok (list ++ [image item]) : Except ε (List β))) before = .ok (before ++ items.map image) := by
  induction items generalizing before with
  | nil => simp [pure, Except.pure]
  | cons item items ih =>
    rw [List.foldlM_cons, ok_bind, ih]
    simp

theorem map_toOption_eq_some : first.toOption.map function = some result ↔ ∃ value, first = .ok value ∧ function value = result := by
  cases first <;> simp [Except.toOption]

/-- Every fault the computation may fail with is one of these, and so is every value it may succeed with. -/
inductive Ends (faults : ε → Prop) (values : α → Prop) : Except ε α → Prop
  | error {fault : ε} (allowed : faults fault) : Ends faults values (.error fault)
  | ok {value : α} (allowed : values value) : Ends faults values (.ok value)

section

variable {faults : ε → Prop} {values : α → Prop} {results : β → Prop}

theorem Ends.bind {next : α → Except ε β} (begins : Ends faults values first)
    (continues : ∀ value, values value → Ends faults results (next value)) : Ends faults results (first >>= next) := by
  cases begins with
  | error allowed => exact .error allowed
  | ok allowed => exact continues _ allowed

theorem Ends.mono {wider : α → Prop} (ends : Ends faults values first)
    (implies : ∀ {value}, values value → wider value) : Ends faults wider first := by
  cases ends with
  | error allowed => exact .error allowed
  | ok allowed => exact .ok (implies allowed)

theorem Ends.require {condition : Prop} [Decidable condition] {fault : ε} (allowed : ¬condition → faults fault) :
    Ends faults (fun _ => condition) (Except.require condition fault) := by
  by_cases holds : condition
  · rw [Except.require, if_pos holds]
    exact .ok holds
  · rw [Except.require, if_neg holds]
    exact .error (allowed holds)

theorem Ends.mapError {first : Except δ α} {convert : δ → ε} (allowed : ∀ original, faults (convert original)) :
    Ends faults (fun value => first = .ok value) (first.mapError convert) := by
  cases first with
  | error original => exact .error (allowed original)
  | ok value => exact .ok rfl

theorem Ends.map {function : α → β} (ends : Ends faults values first)
    (keeps : ∀ value, values value → results (function value)) : Ends faults results (first.map function) := by
  cases ends with
  | error allowed => exact .error allowed
  | ok allowed => exact .ok (keeps _ allowed)

end

/-- Both computations fail with related faults, or both succeed with related values. -/
inductive Related (faults : ε → ε → Prop) (values : α → α → Prop) : Except ε α → Except ε α → Prop
  | error {fault other : ε} (related : faults fault other) : Related faults values (.error fault) (.error other)
  | ok {value other : α} (related : values value other) : Related faults values (.ok value) (.ok other)

theorem Related.mono {faults widerFaults : ε → ε → Prop} {values wider : α → α → Prop} {second : Except ε α}
    (related : Related faults values first second) (widens : ∀ fault other, faults fault other → widerFaults fault other)
    (implies : ∀ value other, values value other → wider value other) : Related widerFaults wider first second := by
  cases related with
  | error related => exact .error (widens _ _ related)
  | ok related => exact .ok (implies _ _ related)

theorem Related.map {faults : ε → ε → Prop} {values : α → α → Prop} {images : β → β → Prop}
    {second : Except ε α} (related : Related faults values first second)
    (keeps : ∀ value other, values value other → images (function value) (function other)) :
    Related faults images (first.map function) (second.map function) := by
  cases related with
  | error related => exact .error related
  | ok related => exact .ok (keeps _ _ related)

end Except

end Retonr
