import Retonr.Eval.Scorecard
import Retonr.Lib.Except

/-! Normalization takes a batch exactly when its observations are the planned ones, each once, and then
says the same whatever their order is. Exchanging the two orders exchanges the two candidates. -/

namespace Retonr.Scorecard
open Text List

/-! ### What a valid plan provides -/

theorem strictlyIncreasing_iff (values : List Text) : strictlyIncreasing values = true ↔ values.Pairwise (· < ·) := by
  rw [← isChain_iff_pairwise]
  induction values with
  | nil => simp [strictlyIncreasing, pairwiseAdjacent]
  | cons value rest ih =>
    cases rest with
    | nil => simp [strictlyIncreasing, pairwiseAdjacent]
    | cons next rest =>
      rw [isChain_cons_cons, ← ih]
      simp [strictlyIncreasing, pairwiseAdjacent]

theorem validateCases_eq_ok {judgeSystem : Digest} {allowEqual : Bool} {index : Nat} {previous : Option Text} {cases : List CasePlan}
    (validated : validateCases judgeSystem allowEqual index previous cases = .ok ()) :
    (∀ case ∈ cases, validCase case judgeSystem allowEqual = true) ∧ (cases.map CasePlan.id).Pairwise (· < ·) ∧
      ∀ id ∈ previous, ∀ case ∈ cases, id < case.id := by
  induction cases generalizing index previous with
  | nil => simp
  | cons case rest ih =>
    rw [validateCases] at validated
    split at validated
    · cases validated
    next passed =>
      rw [not_or, Bool.not_eq_false, Bool.not_eq_true] at passed
      obtain ⟨valid, ordered, later⟩ := ih validated
      have before : ∀ id ∈ previous, id < case.id := by
        rintro id ⟨⟩
        simpa using passed.2
      refine ⟨forall_mem_cons.mpr ⟨passed.1, valid⟩, ?_, ?_⟩
      · rw [map_cons, pairwise_cons]
        exact ⟨forall_mem_map.mpr fun other member => later case.id rfl other member, ordered⟩
      · intro id known
        refine forall_mem_cons.mpr ⟨before id known, ?_⟩
        intro other member
        exact lt_trans (before id known) (later case.id rfl other member)

/-- What normalization relies on. -/
structure Sound (plan : Plan) : Prop where
  distinct : (plan.cases.map CasePlan.id).Nodup
  few : plan.cases.length ≤ maxScorecardCases
  clauses : ∀ case ∈ plan.cases, case.rubricClauses.length ≤ maxRubricClausesPerCase

variable {plan : Plan}

theorem sound_of_validatePlan {contracts : JudgeContracts} (valid : validatePlan contracts plan = .ok ()) : Sound plan := by
  unfold validatePlan validatePlanWithCandidateEquality at valid
  split at valid
  · cases valid
  split at valid
  · cases valid
  split at valid
  · cases valid
  next passed =>
    obtain ⟨cases, ordered, -⟩ := validateCases_eq_ok valid
    refine ⟨ordered.imp fun below => ne_of_lt below, ?_, ?_⟩
    · omega
    · intro case member
      have checked := cases case member
      simp only [validCase, Bool.and_eq_true, decide_eq_true_eq] at checked
      exact checked.1.1.2

/-! ### What a complete batch is -/

/-- The case and the presentation that the observation is of. -/
def JudgeObservation.key (observation : JudgeObservation) : Text × JudgePresentation := (observation.caseId, observation.presentation)

/-- The observation is of a planned case and cites clauses of it, at least one and each behind the one before it. -/
def Admits (plan : Plan) (observation : JudgeObservation) : Prop :=
  ∃ case ∈ plan.cases, case.id = observation.caseId ∧ observation.rubricClauses ≠ [] ∧ observation.rubricClauses.Pairwise (· < ·) ∧
    ∀ clause ∈ observation.rubricClauses, clause ∈ case.rubricClauses

/-- Every planned case is observed once in either presentation, and nothing else is observed. -/
structure Complete (plan : Plan) (observations : List JudgeObservation) : Prop where
  each : ∀ case ∈ plan.cases, ∀ presentation, observations.countP (fun observation => decide (observation.key = (case.id, presentation))) = 1
  only : ∀ observation ∈ observations, Admits plan observation

def plannedKeys (plan : Plan) : List (Text × JudgePresentation) :=
  plan.cases.flatMap fun case => [(case.id, .candidateAFirst), (case.id, .candidateBFirst)]

theorem mem_plannedKeys {key : Text × JudgePresentation} : key ∈ plannedKeys plan ↔ ∃ case ∈ plan.cases, case.id = key.1 := by
  obtain ⟨id, presentation⟩ := key
  cases presentation <;> simp [plannedKeys, eq_comm]

theorem length_plannedKeys (plan : Plan) : (plannedKeys plan).length = plan.cases.length * 2 := by
  simp [plannedKeys, length_flatMap]

theorem Sound.nodup_plannedKeys (sound : Sound plan) : (plannedKeys plan).Nodup := by
  rw [plannedKeys, nodup_flatMap]
  refine ⟨by simp, ?_⟩
  have apart := pairwise_map.mp sound.distinct
  refine apart.imp ?_
  intro case other unlike
  simp [Function.onFun, Ne.symm unlike]

theorem Sound.complete_iff (sound : Sound plan) (observations : List JudgeObservation) : Complete plan observations ↔
      (observations.map JudgeObservation.key).Perm (plannedKeys plan) ∧ ∀ observation ∈ observations, Admits plan observation := by
  have counted (key : Text × JudgePresentation) :
      observations.countP (fun observation => decide (observation.key = key)) = (observations.map JudgeObservation.key).count key := by
    rw [List.count, countP_map]
    exact countP_congr fun observation _ => by simp
  constructor
  · rintro ⟨each, only⟩
    refine ⟨?_, only⟩
    rw [perm_iff_count]
    intro key
    by_cases planned : key ∈ plannedKeys plan
    · obtain ⟨case, member, same⟩ := mem_plannedKeys.mp planned
      rw [count_eq_one_of_mem sound.nodup_plannedKeys planned, ← counted, ← each case member key.2, same]
    · rw [count_eq_zero_of_not_mem planned, count_eq_zero_of_not_mem]
      intro observed
      obtain ⟨observation, member, rfl⟩ := mem_map.mp observed
      obtain ⟨case, inside, same, -⟩ := only observation member
      exact planned (mem_plannedKeys.mpr ⟨case, inside, same⟩)
  · rintro ⟨perm, only⟩
    refine ⟨?_, only⟩
    intro case member presentation
    have planned : (case.id, presentation) ∈ plannedKeys plan := mem_plannedKeys.mpr ⟨case, member, rfl⟩
    rw [counted, perm.count_eq, count_eq_one_of_mem sound.nodup_plannedKeys planned]

variable {observations : List JudgeObservation}

/-- Observations of planned cases, as many as there are to be and no two of the same, are all of them. -/
theorem Sound.complete_of_length (sound : Sound plan)
    (length : observations.length = plan.cases.length * 2) (apart : (observations.map JudgeObservation.key).Nodup)
    (only : ∀ observation ∈ observations, Admits plan observation) : Complete plan observations := by
  rw [sound.complete_iff]
  refine ⟨?_, only⟩
  apply List.Subperm.perm_of_length_le
  · apply subperm_of_subset apart
    intro key member
    obtain ⟨observation, inside, rfl⟩ := mem_map.mp member
    obtain ⟨case, planned, same, -⟩ := only observation inside
    exact mem_plannedKeys.mpr ⟨case, planned, same⟩
  · rw [length_plannedKeys, length_map, length]

/-! ### Collecting the observations -/

theorem validClauses_iff {observed planned : List Text} (few : planned.length ≤ maxRubricClausesPerCase) :
    validClauses observed planned = true ↔ observed ≠ [] ∧ observed.Pairwise (· < ·) ∧ ∀ clause ∈ observed, clause ∈ planned := by
  simp only [validClauses, Bool.and_eq_true, Bool.not_eq_true', isEmpty_eq_false_iff, decide_eq_true_eq, strictlyIncreasing_iff,
    all_eq_true, contains_iff_mem]
  constructor
  · rintro ⟨⟨⟨filled, -⟩, ordered⟩, inside⟩
    exact ⟨filled, ordered, inside⟩
  · rintro ⟨filled, ordered, inside⟩
    have apart : observed.Nodup := ordered.imp fun below => ne_of_lt below
    exact ⟨⟨⟨filled, Nat.le_trans (subperm_of_subset apart inside).length_le few⟩, ordered⟩, inside⟩

variable {case : CasePlan}

theorem Sound.find_plansById (sound : Sound plan) {id : Text} : (plansById plan).find id = some case ↔ case ∈ plan.cases ∧ case.id = id := by
  rw [← Table.mem_rows_iff, plansById, Table.rows_foldl_upsert sound.distinct fun _ _ => rfl, Table.rows_empty, nil_append, mem_map]
  constructor
  · rintro ⟨found, member, ⟨⟩⟩
    exact ⟨member, rfl⟩
  · rintro ⟨member, rfl⟩
    exact ⟨case, member, rfl⟩

variable {table : ObservationTable}

/-- The collection succeeds on observations that are all in order and all apart, and keeps each under its key. -/
theorem collectObservations_eq_ok {plans : Table Text CasePlan} {result : ObservationTable} :
    collectObservations plans observations table = .ok result ↔
      (∀ observation ∈ observations, ∃ case, plans.find observation.caseId = some case ∧
        validClauses observation.rubricClauses case.rubricClauses = true) ∧
      (observations.map JudgeObservation.key).Nodup ∧ (∀ observation ∈ observations, table.find observation.key = none) ∧
      result = observations.foldl (fun table observation => table.upsert observation.key observation) table := by
  induction observations generalizing table with
  | nil =>
    rw [collectObservations, Except.ok.injEq, foldl_nil, eq_comm]
    simp
  | cons observation rest ih =>
    rw [collectObservations, forall_mem_cons, map_cons, nodup_cons, forall_mem_cons, foldl_cons]
    split
    next unknown => simp [unknown]
    next case known =>
      split
      next refused =>
        simp only [reduceCtorEq, known, false_iff]
        rintro ⟨⟨⟨_, ⟨⟩, valid⟩, -⟩, -, ⟨fresh, -⟩, -⟩
        rcases refused with invalid | repeated
        · exact absurd valid (by simp [invalid])
        · change (table.find observation.key).isSome = true at repeated
          exact absurd repeated (by simp [fresh])
      next passed =>
        rw [not_or, Bool.not_eq_false, Bool.not_eq_true, Option.isSome_eq_false_iff, Option.isNone_iff_eq_none] at passed
        change collectObservations plans rest (table.upsert observation.key observation) = _ ↔ _
        rw [ih]
        have fresh : table.find observation.key = none := passed.2
        have unlike : (∀ other ∈ rest, (table.upsert observation.key observation).find other.key = none) ↔
            observation.key ∉ rest.map JudgeObservation.key ∧ ∀ other ∈ rest, table.find other.key = none := by
          simp only [Table.find_upsert, mem_map, not_exists, not_and]
          constructor
          · intro absent
            refine ⟨fun other member same => ?_, fun other member => ?_⟩
            · simpa [same] using absent other member
            · have missing := absent other member
              split at missing
              · cases missing
              · exact missing
          · rintro ⟨apart, absent⟩ other member
            rw [if_neg (apart other member), absent other member]
        rw [unlike]
        constructor
        · rintro ⟨valid, apart, ⟨unseen, absent⟩, rfl⟩
          exact ⟨⟨⟨case, known, passed.1⟩, valid⟩, ⟨unseen, apart⟩, ⟨fresh, absent⟩, rfl⟩
        · rintro ⟨⟨-, valid⟩, ⟨unseen, apart⟩, ⟨-, absent⟩, rfl⟩
          exact ⟨valid, apart, ⟨unseen, absent⟩, rfl⟩

/-! ### Outcomes -/

/-- The outcome that two observations of the case amount to. -/
def Judged (observations : List JudgeObservation) (case : CasePlan) (result : JudgeCaseResult) : Prop :=
  result.caseId = case.id ∧ ∃ initial ∈ observations, ∃ swapped ∈ observations, initial.key = (case.id, .candidateAFirst) ∧
    swapped.key = (case.id, .candidateBFirst) ∧ result.outcome = normalizePair initial.choice swapped.choice

def recorded (summary : JudgeTriageSummary) (results : List JudgeCaseResult) : JudgeTriageSummary :=
  results.foldl (fun summary result => summary.record result.caseId result.outcome) summary

variable {result : JudgeCaseResult}

theorem judged_iff (lookup : ∀ key observation, table.find key = some observation ↔ observation ∈ observations ∧ observation.key = key) :
    Judged observations case result ↔ ∃ initial swapped, table.find (case.id, .candidateAFirst) = some initial ∧
      table.find (case.id, .candidateBFirst) = some swapped ∧ result = ⟨case.id, normalizePair initial.choice swapped.choice⟩ := by
  obtain ⟨id, outcome⟩ := result
  simp only [lookup, JudgeCaseResult.mk.injEq]
  constructor
  · rintro ⟨rfl, initial, inside, swapped, insideToo, same, sameToo, rfl⟩
    exact ⟨initial, swapped, ⟨inside, same⟩, ⟨insideToo, sameToo⟩, rfl, rfl⟩
  · rintro ⟨initial, swapped, ⟨inside, same⟩, ⟨insideToo, sameToo⟩, rfl, rfl⟩
    exact ⟨rfl, initial, inside, swapped, insideToo, same, sameToo, rfl⟩

variable {summary : JudgeTriageSummary}

theorem summarizeCases_eq_ok
    (lookup : ∀ key observation, table.find key = some observation ↔ observation ∈ observations ∧ observation.key = key) {cases : List CasePlan}
    {result : JudgeTriageSummary} : summarizeCases table cases summary = .ok result ↔
      ∃ results, List.Forall₂ (Judged observations) cases results ∧ result = recorded summary results := by
  induction cases generalizing summary with
  | nil => simp [summarizeCases, recorded, eq_comm]
  | cons case rest ih =>
    simp only [forall₂_cons_left_iff, judged_iff lookup]
    rw [summarizeCases]
    split
    next initial swapped found foundToo =>
      rw [ih]
      simp only [found, foundToo, Option.some.injEq]
      constructor
      · rintro ⟨results, judged, rfl⟩
        exact ⟨_, ⟨_, results, ⟨initial, swapped, rfl, rfl, rfl⟩, judged, rfl⟩, rfl⟩
      · rintro ⟨_, ⟨_, results, ⟨_, _, rfl, rfl, rfl⟩, judged, rfl⟩, rfl⟩
        exact ⟨results, judged, rfl⟩
    next missing =>
      simp only [reduceCtorEq, false_iff]
      rintro ⟨_, ⟨_, _, ⟨initial, swapped, found, foundToo, -⟩, -⟩, -⟩
      exact missing initial swapped found foundToo

theorem find_collected (apart : (observations.map JudgeObservation.key).Nodup)
    (key : Text × JudgePresentation) (observation : JudgeObservation) :
    (observations.foldl (fun table observation => table.upsert observation.key observation) (.empty : ObservationTable)).find key =
      some observation ↔ observation ∈ observations ∧ observation.key = key := by
  rw [← Table.mem_rows_iff, Table.rows_foldl_upsert apart fun _ _ => rfl, Table.rows_empty, nil_append, mem_map]
  constructor
  · rintro ⟨found, member, ⟨⟩⟩
    exact ⟨member, rfl⟩
  · rintro ⟨member, rfl⟩
    exact ⟨observation, member, rfl⟩

theorem Complete.exists_results (complete : Complete plan observations) : ∃ results, List.Forall₂ (Judged observations) plan.cases results := by
  have observed : ∀ case ∈ plan.cases, ∀ presentation, ∃ observation ∈ observations, observation.key = (case.id, presentation) := by
    intro case member presentation
    have positive : 0 < observations.countP (fun observation => decide (observation.key = (case.id, presentation))) := by
      rw [complete.each case member presentation]
      decide
    simpa using countP_pos_iff.mp positive
  have every : ∀ cases : List CasePlan, cases ⊆ plan.cases → ∃ results, List.Forall₂ (Judged observations) cases results := by
    intro cases inside
    induction cases with
    | nil => exact ⟨[], .nil⟩
    | cons case rest ih =>
      obtain ⟨member, others⟩ := cons_subset.mp inside
      obtain ⟨results, judged⟩ := ih others
      obtain ⟨initial, found, same⟩ := observed case member .candidateAFirst
      obtain ⟨swapped, foundToo, sameToo⟩ := observed case member .candidateBFirst
      exact ⟨⟨case.id, normalizePair initial.choice swapped.choice⟩ :: results,
        .cons ⟨rfl, initial, found, swapped, foundToo, same, sameToo, rfl⟩ judged⟩
  exact every plan.cases (List.Subset.refl _)

variable {batch : JudgeObservationBatch}

theorem normalizeObservations_eq_ok (sound : Sound plan) : normalizeObservations plan batch = .ok summary ↔
      Complete plan batch.observations ∧ ∃ results, List.Forall₂ (Judged batch.observations) plan.cases results ∧
        summary = recorded (.empty plan.cases.length) results := by
  have bound : min (plan.cases.length * 2) (usizeLimit - 1) = plan.cases.length * 2 := by
    have few := sound.few
    simp only [maxScorecardCases, usizeLimit] at *
    omega
  have admitted : (∀ observation ∈ batch.observations, ∃ case, (plansById plan).find observation.caseId = some case ∧
      validClauses observation.rubricClauses case.rubricClauses = true) ↔ ∀ observation ∈ batch.observations, Admits plan observation := by
    refine forall₂_congr fun observation _ => exists_congr fun case => ?_
    rw [sound.find_plansById, and_assoc]
    refine and_congr_right fun member => ?_
    rw [validClauses_iff (sound.clauses case member)]
  rw [normalizeObservations, bound]
  split
  next short =>
    simp only [reduceCtorEq, false_iff]
    rintro ⟨complete, -⟩
    have perm := ((sound.complete_iff _).mp complete).1
    exact short (by rw [← length_plannedKeys, ← perm.length_eq, length_map])
  next length =>
    simp only [Except.bind_eq_ok, collectObservations_eq_ok, admitted]
    constructor
    · rintro ⟨_, ⟨only, apart, -, rfl⟩, summarized⟩
      exact ⟨sound.complete_of_length (not_not.mp length) apart only, (summarizeCases_eq_ok (find_collected apart)).mp summarized⟩
    · rintro ⟨complete, judged⟩
      obtain ⟨perm, only⟩ := (sound.complete_iff _).mp complete
      have apart := perm.nodup_iff.mpr sound.nodup_plannedKeys
      exact ⟨_, ⟨only, apart, fun _ _ => rfl, rfl⟩, (summarizeCases_eq_ok (find_collected apart)).mpr judged⟩

theorem normalizeObservations_eq_error {fault : ScorecardError}
    (refused : normalizeObservations plan batch = .error fault) : fault = .invalidObservations := by
  have collects : ∀ (observations : List JudgeObservation) (table : ObservationTable) (fault : ScorecardError),
      collectObservations (plansById plan) observations table = .error fault → fault = .invalidObservations := by
    intro observations
    induction observations with
    | nil => simp [collectObservations]
    | cons observation rest ih =>
      intro table fault stopped
      rw [collectObservations] at stopped
      split at stopped
      · cases stopped
        rfl
      · split at stopped
        · cases stopped
          rfl
        · exact ih _ _ stopped
  have summarizes : ∀ (table : ObservationTable) (cases : List CasePlan) (summary : JudgeTriageSummary) (fault : ScorecardError),
      summarizeCases table cases summary = .error fault → fault = .invalidObservations := by
    intro table cases
    induction cases with
    | nil => simp [summarizeCases]
    | cons case rest ih =>
      intro summary fault stopped
      rw [summarizeCases] at stopped
      split at stopped
      · exact ih _ _ stopped
      · cases stopped
        rfl
  rw [normalizeObservations] at refused
  split at refused
  · cases refused
    rfl
  · rcases Except.bind_eq_error.mp refused with stopped | ⟨table, -, stopped⟩
    · exact collects _ _ _ stopped
    · exact summarizes _ _ _ _ stopped

/-! ### The summary -/

def tallied (outcome : JudgeCaseOutcome) (results : List JudgeCaseResult) : Nat := results.countP fun result => decide (result.outcome = outcome)

theorem recorded_eq (summary : JudgeTriageSummary) (results : List JudgeCaseResult) : recorded summary results =
      ⟨summary.total, summary.stableA + tallied .stableA results, summary.stableB + tallied .stableB results,
        summary.stableTie + tallied .stableTie results, summary.abstained + tallied .abstained results,
        summary.orderSensitive + tallied .orderSensitive results, summary.cases ++ results⟩ := by
  induction results generalizing summary with
  | nil => simp [recorded, tallied]
  | cons result results ih =>
    obtain ⟨id, outcome⟩ := result
    change recorded (summary.record id outcome) results = _
    rw [ih]
    cases outcome <;> simp [JudgeTriageSummary.record, tallied, Nat.add_comm, Nat.add_assoc]

theorem sum_tallied (results : List JudgeCaseResult) :
    tallied .stableA results + tallied .stableB results + tallied .stableTie results + tallied .abstained results +
      tallied .orderSensitive results = results.length := by
  induction results with
  | nil => rfl
  | cons result results ih =>
    obtain ⟨id, outcome⟩ := result
    rw [length_cons, ← ih]
    cases outcome <;> simp [tallied] <;> omega

/-! ### The other order -/

def JudgePresentation.exchanged : JudgePresentation → JudgePresentation
  | .candidateAFirst => .candidateBFirst
  | .candidateBFirst => .candidateAFirst

def JudgeObservation.exchanged (observation : JudgeObservation) : JudgeObservation :=
  { observation with presentation := observation.presentation.exchanged }

def JudgeObservationBatch.exchanged (batch : JudgeObservationBatch) : JudgeObservationBatch :=
  { batch with observations := batch.observations.map JudgeObservation.exchanged }

def JudgeCaseOutcome.exchanged : JudgeCaseOutcome → JudgeCaseOutcome
  | .stableA => .stableB
  | .stableB => .stableA
  | outcome => outcome

def JudgeCaseResult.exchanged (result : JudgeCaseResult) : JudgeCaseResult := { result with outcome := result.outcome.exchanged }

def JudgeTriageSummary.exchanged (summary : JudgeTriageSummary) : JudgeTriageSummary :=
  { summary with stableA := summary.stableB, stableB := summary.stableA, cases := summary.cases.map JudgeCaseResult.exchanged }

theorem normalizePair_exchanged (initial swapped : JudgeChoice) : normalizePair swapped initial = (normalizePair initial swapped).exchanged := by
  cases initial <;> cases swapped <;> rfl

theorem JudgePresentation.exchanged_exchanged (presentation : JudgePresentation) : presentation.exchanged.exchanged = presentation := by
  cases presentation <;> rfl

theorem JudgeObservation.key_exchanged {observation : JudgeObservation} {id : Text} {presentation : JudgePresentation} :
    observation.exchanged.key = (id, presentation) ↔ observation.key = (id, presentation.exchanged) := by
  simp only [key, exchanged, Prod.mk.injEq]
  refine and_congr_right fun _ => ?_
  constructor
  · rintro rfl
    rw [JudgePresentation.exchanged_exchanged]
  · intro same
    rw [same, JudgePresentation.exchanged_exchanged]

theorem Judged.exchanged (judged : Judged observations case result) :
    Judged (observations.map JudgeObservation.exchanged) case result.exchanged := by
  obtain ⟨id, initial, inside, swapped, insideToo, same, sameToo, outcome⟩ := judged
  -- The observation that came second is now the one with candidate A first.
  refine ⟨id, swapped.exchanged, mem_map_of_mem insideToo, initial.exchanged, mem_map_of_mem inside, ?_, ?_, ?_⟩
  · exact JudgeObservation.key_exchanged.mpr sameToo
  · exact JudgeObservation.key_exchanged.mpr same
  · change result.outcome.exchanged = normalizePair swapped.choice initial.choice
    rw [normalizePair_exchanged, outcome]

theorem Complete.exchanged (complete : Complete plan observations) : Complete plan (observations.map JudgeObservation.exchanged) := by
  constructor
  · intro case member presentation
    rw [countP_map, ← complete.each case member presentation.exchanged]
    refine countP_congr fun observation _ => ?_
    simp only [Function.comp, decide_eq_true_eq]
    exact JudgeObservation.key_exchanged
  · exact forall_mem_map.mpr complete.only

theorem JudgeCaseOutcome.exchanged_eq_iff (outcome other : JudgeCaseOutcome) : outcome.exchanged = other ↔ outcome = other.exchanged := by
  cases outcome <;> cases other <;> decide

theorem tallied_exchanged (outcome : JudgeCaseOutcome) (results : List JudgeCaseResult) :
    tallied outcome (results.map JudgeCaseResult.exchanged) = tallied outcome.exchanged results := by
  rw [tallied, countP_map]
  refine countP_congr fun result _ => ?_
  simp only [Function.comp, decide_eq_true_eq]
  exact result.outcome.exchanged_eq_iff outcome

theorem recorded_exchanged (total : Nat) (results : List JudgeCaseResult) :
    recorded (.empty total) (results.map JudgeCaseResult.exchanged) = (recorded (.empty total) results).exchanged := by
  simp only [recorded_eq, tallied_exchanged, JudgeTriageSummary.exchanged, JudgeTriageSummary.empty, JudgeCaseOutcome.exchanged, nil_append]

/-- A success of the exchanged batch is the exchange of a success. -/
theorem normalizeObservations_exchanged_of_ok (sound : Sound plan)
    (normalized : normalizeObservations plan batch = .ok summary) : normalizeObservations plan batch.exchanged = .ok summary.exchanged := by
  obtain ⟨complete, results, judged, rfl⟩ := (normalizeObservations_eq_ok sound).mp normalized
  refine (normalizeObservations_eq_ok sound).mpr ⟨complete.exchanged, results.map JudgeCaseResult.exchanged, ?_, (recorded_exchanged _ _).symm⟩
  rw [forall₂_map_right_iff]
  exact judged.imp fun _ _ => Judged.exchanged

theorem JudgeObservationBatch.exchanged_exchanged (batch : JudgeObservationBatch) : batch.exchanged.exchanged = batch := by
  obtain ⟨version, id, digest, observations⟩ := batch
  simp [exchanged, JudgeObservation.exchanged, Function.comp_def, JudgePresentation.exchanged_exchanged]

/-- Two normalizations that succeed on the same terms are equal: where one fails the other does. -/
theorem normalizeObservations_congr {other : JudgeObservationBatch} {change : JudgeTriageSummary → JudgeTriageSummary}
    (forward : ∀ summary, normalizeObservations plan batch = .ok summary → normalizeObservations plan other = .ok (change summary))
    (backward : ∀ summary, normalizeObservations plan other = .ok summary → ∃ first, normalizeObservations plan batch = .ok first) :
    normalizeObservations plan other = (normalizeObservations plan batch).map change := by
  cases before : normalizeObservations plan batch with
  | ok summary => exact forward summary before
  | error fault =>
    cases after : normalizeObservations plan other with
    | ok summary =>
      obtain ⟨first, again⟩ := backward summary after
      rw [before] at again
      cases again
    | error later =>
      rw [normalizeObservations_eq_error before, normalizeObservations_eq_error after]
      rfl

variable {reordered : List JudgeObservation}

theorem Complete.perm (complete : Complete plan observations) (perm : reordered.Perm observations) : Complete plan reordered := by
  constructor
  · intro case member presentation
    rw [perm.countP_eq, complete.each case member presentation]
  · intro observation member
    exact complete.only observation (perm.subset member)

theorem Judged.perm (judged : Judged observations case result) (perm : reordered.Perm observations) : Judged reordered case result := by
  obtain ⟨id, initial, inside, swapped, insideToo, rest⟩ := judged
  exact ⟨id, initial, perm.symm.subset inside, swapped, perm.symm.subset insideToo, rest⟩

theorem normalizeObservations_reordered (sound : Sound plan)
    (perm : reordered.Perm batch.observations) (normalized : normalizeObservations plan batch = .ok summary) :
    normalizeObservations plan { batch with observations := reordered } = .ok summary := by
  obtain ⟨complete, results, judged, rfl⟩ := (normalizeObservations_eq_ok sound).mp normalized
  exact (normalizeObservations_eq_ok sound).mpr ⟨complete.perm perm, results, judged.imp fun _ _ found => found.perm perm, rfl⟩

/-- Normalization takes exactly the complete batches. What it returns counts the outcomes of the cases in the order of the plan, does not depend
on the order of the observations, and has the two candidates exchanged when the presentations are. -/
theorem normalization_is_exact_and_symmetric {contracts : JudgeContracts} {plan : Plan} (valid : validatePlan contracts plan = .ok ())
    (batch : JudgeObservationBatch) :
    ((∃ summary, normalizeObservations plan batch = .ok summary) ↔ Complete plan batch.observations) ∧
      (∀ reordered, reordered.Perm batch.observations →
        normalizeObservations plan { batch with observations := reordered } = normalizeObservations plan batch) ∧
      (∀ summary, normalizeObservations plan batch = .ok summary →
        List.Forall₂ (Judged batch.observations) plan.cases summary.cases ∧ summary.total = plan.cases.length ∧
        summary.stableA + summary.stableB + summary.stableTie + summary.abstained + summary.orderSensitive = summary.total ∧
        summary.stableA = tallied .stableA summary.cases ∧ summary.stableB = tallied .stableB summary.cases ∧
        summary.stableTie = tallied .stableTie summary.cases ∧ summary.abstained = tallied .abstained summary.cases ∧
        summary.orderSensitive = tallied .orderSensitive summary.cases) ∧
      normalizeObservations plan batch.exchanged = (normalizeObservations plan batch).map JudgeTriageSummary.exchanged := by
  have sound := sound_of_validatePlan valid
  refine ⟨⟨?_, ?_⟩, ?_, ?_, ?_⟩
  · rintro ⟨summary, normalized⟩
    exact ((normalizeObservations_eq_ok sound).mp normalized).1
  · intro complete
    obtain ⟨results, judged⟩ := complete.exists_results
    exact ⟨_, (normalizeObservations_eq_ok sound).mpr ⟨complete, results, judged, rfl⟩⟩
  · intro reordered perm
    have same := normalizeObservations_congr (fun _ => normalizeObservations_reordered sound perm) fun summary normalized =>
      ⟨summary, @normalizeObservations_reordered plan summary { batch with observations := reordered } batch.observations sound perm.symm normalized⟩
    rw [same]
    cases normalizeObservations plan batch <;> rfl
  · intro summary normalized
    obtain ⟨-, results, judged, rfl⟩ := (normalizeObservations_eq_ok sound).mp normalized
    rw [recorded_eq]
    simp only [JudgeTriageSummary.empty, nil_append, Nat.zero_add, and_self, and_true]
    exact ⟨judged, trivial, by rw [sum_tallied, judged.length_eq]⟩
  · refine normalizeObservations_congr (fun _ => normalizeObservations_exchanged_of_ok sound) ?_
    intro summary normalized
    have again := normalizeObservations_exchanged_of_ok sound normalized
    rw [batch.exchanged_exchanged] at again
    exact ⟨summary.exchanged, again⟩

/-- Two different digests, and a plan of one case under contracts that have the first of them. -/
def sampleDigest : Digest := ⟨List.replicate 64 'a', by decide⟩

def otherDigest : Digest := ⟨List.replicate 64 'b', by decide⟩

def sampleContracts : JudgeContracts := ⟨sampleDigest, sampleDigest⟩

def samplePlan : Plan where
  schemaVersion := 1
  planId := ['p']
  corpusDigest := sampleDigest
  rubricDigest := sampleDigest
  deterministicPolicyDigest := sampleDigest
  judge := ⟨sampleDigest, ['m'], sampleDigest, sampleDigest, sampleDigest, 0, 0, 1000, 1, 1, 1, 1, 1, 1, 1, 256, 1⟩
  cases := [⟨['c'], ['d'], sampleDigest, sampleDigest, otherDigest, otherDigest, otherDigest, [['r']]⟩]

def sampleBatch : JudgeObservationBatch :=
  ⟨1, ['p'], sampleDigest, [⟨['c'], .candidateBFirst, .second, [['r']]⟩, ⟨['c'], .candidateAFirst, .first, [['r']]⟩]⟩

theorem normalization_is_exact_and_symmetric_sample :
    validatePlan sampleContracts samplePlan = .ok () ∧ Complete samplePlan sampleBatch.observations ∧
      normalizeObservations samplePlan sampleBatch = .ok ⟨1, 1, 0, 0, 0, 0, [⟨['c'], .stableA⟩]⟩ ∧
      normalizeObservations samplePlan sampleBatch.exchanged = .ok ⟨1, 0, 1, 0, 0, 0, [⟨['c'], .stableB⟩]⟩ := by
  have valid : validatePlan sampleContracts samplePlan = .ok () := by decide +kernel
  have normalized : normalizeObservations samplePlan sampleBatch = .ok ⟨1, 1, 0, 0, 0, 0, [⟨['c'], .stableA⟩]⟩ := rfl
  obtain ⟨accepts, -, -, exchanged⟩ := normalization_is_exact_and_symmetric valid sampleBatch
  exact ⟨valid, accepts.mp ⟨_, normalized⟩, normalized, by rw [exchanged, normalized]; rfl⟩

end Retonr.Scorecard
