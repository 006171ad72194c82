import Retonr.Eval.Suite

/-! Every schedule of the workers yields the report of the serial run, and the report of every suite passes
the consistency check. -/

namespace Retonr.Evaluation
open Text List

/-! ### One case -/

/-- An outcome carries a failure exactly when it did not pass, and counts as rewritten only where it counts as acceptable. -/
structure Coherent (outcome : CaseExecutionOutcome) : Prop where
  failed : outcome.passed = outcome.failure.isNone
  covered : outcome.rewrittenIncrement ≤ outcome.acceptableIncrement

theorem executeSingleCase_spec (check : CandidateChecker) (index : Nat) (case : EvaluationCase) :
    (executeSingleCase check index case).index = index ∧ (executeSingleCase check index case).category = case.category ∧
      Coherent (executeSingleCase check index case) := by
  unfold executeSingleCase
  split
  next result _ =>
    have covered : (if (case.referenceJudgment = .acceptable ∧ encode case.source ≠ encode case.candidate) ∧
        result.record.status = .rewritten ∧ result.output = encode case.candidate then 1 else 0) ≤
        if case.referenceJudgment = .acceptable ∧ encode case.source ≠ encode case.candidate then 1 else 0 := by
      split
      next both => rw [if_pos both.1]
      next => exact Nat.zero_le _
    dsimp only
    split
    · exact ⟨rfl, rfl, rfl, covered⟩
    · exact ⟨rfl, rfl, rfl, covered⟩
  next => exact ⟨rfl, rfl, rfl, Nat.le_refl _⟩

/-! ### Categories -/

theorem sum_countCategory (name : Text) (passed : Bool) (categories : List CategoryResult) :
    ((countCategory name passed categories).map CategoryResult.total).sum = (categories.map CategoryResult.total).sum + 1 ∧
      ((countCategory name passed categories).map CategoryResult.passed).sum = (categories.map CategoryResult.passed).sum + passed.toNat := by
  induction categories with
  | nil => simp [countCategory]
  | cons entry rest ih =>
    rw [countCategory]
    split
    · simp only [map_cons, sum_cons]
      omega
    split
    · simp only [map_cons, sum_cons]
      omega
    · simp only [map_cons, sum_cons, ih]
      omega

/-- Each category stands once, and counts the outcomes of its name. -/
structure Counted (outcomes : List CaseExecutionOutcome) (categories : List CategoryResult) : Prop where
  ordered : (categories.map CategoryResult.category).Pairwise (· < ·)
  totals : ∀ entry ∈ categories, entry.total = outcomes.countP fun outcome => decide (outcome.category = entry.category)
  passes : ∀ entry ∈ categories,
    entry.passed = outcomes.countP fun outcome => decide (outcome.category = entry.category) && outcome.passed
  known : ∀ outcome ∈ outcomes, outcome.category ∈ categories.map CategoryResult.category

/-- The entries of a name that is counted once more: the others stay, and its own entry is new or one further. -/
theorem mem_countCategory {name : Text} {passed : Bool} {categories : List CategoryResult} {entry : CategoryResult}
    (ordered : (categories.map CategoryResult.category).Pairwise (· < ·)) (member : entry ∈ countCategory name passed categories) :
    (entry ∈ categories ∧ entry.category ≠ name) ∨
      (∃ old ∈ categories, old.category = name ∧ entry = { old with total := old.total + 1, passed := old.passed + passed.toNat }) ∨
      entry = ⟨name, 1, passed.toNat⟩ ∧ name ∉ categories.map CategoryResult.category := by
  induction categories with
  | nil => exact .inr (.inr ⟨by simpa [countCategory] using member, by simp⟩)
  | cons first rest ih =>
    obtain ⟨least, others⟩ := pairwise_cons.mp ordered
    rw [countCategory] at member
    split at member
    next before =>
      have unlike : ∀ later ∈ first :: rest, later.category ≠ name := by
        intro later inside
        rcases mem_cons.mp inside with rfl | inside
        · exact ne_of_gt before
        · exact ne_of_gt (lt_trans before (least _ (mem_map_of_mem inside)))
      rcases mem_cons.mp member with rfl | inside
      · refine .inr (.inr ⟨rfl, ?_⟩)
        intro found
        obtain ⟨later, inside, same⟩ := mem_map.mp found
        exact unlike later inside same
      · exact .inl ⟨inside, unlike entry inside⟩
    next behind =>
      split at member
      next same =>
        rcases mem_cons.mp member with rfl | inside
        · exact .inr (.inl ⟨first, mem_cons_self, same.symm, rfl⟩)
        · exact .inl ⟨mem_cons_of_mem _ inside, same ▸ ne_of_gt (least _ (mem_map_of_mem inside))⟩
      next other =>
        rcases mem_cons.mp member with rfl | inside
        · exact .inl ⟨mem_cons_self, Ne.symm other⟩
        · rcases ih others inside with ⟨inside, unlike⟩ | ⟨old, inside, same, shape⟩ | ⟨shape, absent⟩
          · exact .inl ⟨mem_cons_of_mem _ inside, unlike⟩
          · exact .inr (.inl ⟨old, mem_cons_of_mem _ inside, same, shape⟩)
          · refine .inr (.inr ⟨shape, ?_⟩)
            rw [map_cons, mem_cons, not_or]
            exact ⟨other, absent⟩

theorem names_countCategory (name : Text) (passed : Bool) (categories : List CategoryResult) (found : Text) :
    found ∈ (countCategory name passed categories).map CategoryResult.category ↔ found = name ∨ found ∈ categories.map CategoryResult.category := by
  induction categories with
  | nil => simp [countCategory]
  | cons entry rest ih =>
    rw [countCategory]
    split
    · simp
    split
    next same => simp [same]
    next => simp only [map_cons, mem_cons, ih, or_left_comm]

theorem ordered_countCategory {name : Text} {passed : Bool} {categories : List CategoryResult}
    (ordered : (categories.map CategoryResult.category).Pairwise (· < ·)) :
    ((countCategory name passed categories).map CategoryResult.category).Pairwise (· < ·) := by
  induction categories with
  | nil => simp [countCategory]
  | cons entry rest ih =>
    obtain ⟨least, others⟩ := pairwise_cons.mp ordered
    rw [countCategory]
    split
    next before =>
      refine pairwise_cons.mpr ⟨?_, ordered⟩
      intro later member
      rcases mem_cons.mp member with rfl | inside
      · exact before
      · exact lt_trans before (least later inside)
    next behind =>
      split
      next => exact pairwise_cons.mpr ⟨least, others⟩
      next other =>
        refine pairwise_cons.mpr ⟨?_, ih others⟩
        intro later member
        rcases (names_countCategory name passed rest later).mp member with rfl | inside
        · exact lt_of_le_of_ne (not_lt.mp behind) (Ne.symm other)
        · exact least later inside

theorem Counted.add {outcomes : List CaseExecutionOutcome} {categories : List CategoryResult} (counted : Counted outcomes categories)
    (outcome : CaseExecutionOutcome) : Counted (outcomes ++ [outcome]) (countCategory outcome.category outcome.passed categories) where
  ordered := ordered_countCategory counted.ordered
  totals := by
    intro entry member
    rw [countP_append, countP_singleton]
    rcases mem_countCategory counted.ordered member with ⟨inside, unlike⟩ | ⟨old, inside, same, rfl⟩ | ⟨rfl, absent⟩
    · rw [counted.totals entry inside, if_neg (by simpa using Ne.symm unlike), Nat.add_zero]
    · rw [counted.totals old inside, if_pos (by simp [same])]
    · rw [if_pos (by simp), countP_eq_zero.mpr]
      intro other seen
      simp only [decide_eq_true_eq]
      intro same
      exact absent (same ▸ counted.known other seen)
  passes := by
    intro entry member
    rw [countP_append, countP_singleton]
    rcases mem_countCategory counted.ordered member with ⟨inside, unlike⟩ | ⟨old, inside, same, rfl⟩ | ⟨rfl, absent⟩
    · rw [counted.passes entry inside, if_neg (by simpa using fun same => absurd same.symm unlike), Nat.add_zero]
    · rw [counted.passes old inside]
      cases outcome.passed <;> simp [same]
    · rw [countP_eq_zero.mpr]
      · cases outcome.passed <;> simp
      · intro other seen
        simp only [Bool.and_eq_true, decide_eq_true_eq, not_and]
        intro same
        exact absurd (same ▸ counted.known other seen) absent
  known := by
    intro other member
    rw [names_countCategory]
    rcases mem_append.mp member with before | now
    · exact .inr (counted.known other before)
    · rw [mem_singleton] at now
      exact .inl (now ▸ rfl)

/-! ### The aggregate -/

/-- What the aggregate of these outcomes says. -/
structure Tallied (outcomes : List CaseExecutionOutcome) (aggregate : Aggregate) : Prop where
  counted : Counted outcomes aggregate.categories
  totals : (aggregate.categories.map CategoryResult.total).sum = outcomes.length
  passes : (aggregate.categories.map CategoryResult.passed).sum + aggregate.failures.length = outcomes.length
  failures : aggregate.failures = outcomes.filterMap CaseExecutionOutcome.failure
  covered : aggregate.transformationCoverage.rewritten ≤ aggregate.transformationCoverage.acceptable

theorem Tallied.add {outcomes : List CaseExecutionOutcome} {aggregate : Aggregate} (tallied : Tallied outcomes aggregate)
    {outcome : CaseExecutionOutcome} (coherent : Coherent outcome) : Tallied (outcomes ++ [outcome]) (aggregate.add outcome) where
  counted := tallied.counted.add outcome
  totals := by
    rw [Aggregate.add, (sum_countCategory _ _ _).1, tallied.totals, length_append, length_singleton]
  passes := by
    have before := tallied.passes
    have failed := coherent.failed
    simp only [Aggregate.add, (sum_countCategory _ _ _).2, length_append, length_singleton]
    cases failure : outcome.failure with
    | none =>
      rw [failure, Option.isNone_none] at failed
      simp only [failed, Bool.toNat_true, Option.toList_none, length_nil]
      omega
    | some fault =>
      rw [failure, Option.isNone_some] at failed
      simp only [failed, Bool.toNat_false, Option.toList_some, length_singleton]
      omega
  failures := by
    rw [filterMap_append, ← tallied.failures, Aggregate.add]
    cases failure : outcome.failure <;> simp [failure]
  covered := by
    have before := tallied.covered
    have here := coherent.covered
    simp only [Aggregate.add]
    omega

theorem Tallied.foldl {outcomes later : List CaseExecutionOutcome} {aggregate : Aggregate} (tallied : Tallied outcomes aggregate)
    (coherent : ∀ outcome ∈ later, Coherent outcome) : Tallied (outcomes ++ later) (later.foldl Aggregate.add aggregate) := by
  induction later generalizing outcomes aggregate with
  | nil => simpa using tallied
  | cons outcome later ih =>
    obtain ⟨first, others⟩ := forall_mem_cons.mp coherent
    have rest := ih (tallied.add first) others
    rwa [append_assoc, singleton_append] at rest

/-! ### Reports -/

/-- The outcomes of the cases in their order, each executed once. -/
def outcomes (check : CandidateChecker) (suite : EvaluationSuite) : List CaseExecutionOutcome :=
  suite.cases.zipIdx.map fun (case, index) => executeSingleCase check index case

theorem ordered_outcomes (check : CandidateChecker) (suite : EvaluationSuite) :
    (outcomes check suite).Pairwise fun outcome other => decide (outcome.index ≤ other.index) = true := by
  rw [outcomes, pairwise_map, pairwise_iff_getElem]
  intro first second _ _ before
  simp only [getElem_zipIdx, (executeSingleCase_spec check _ _).1, decide_eq_true_eq]
  omega

theorem coherent_outcomes (check : CandidateChecker) (suite : EvaluationSuite) : ∀ outcome ∈ outcomes check suite, Coherent outcome := by
  intro outcome member
  obtain ⟨⟨case, index⟩, -, rfl⟩ := mem_map.mp member
  exact (executeSingleCase_spec check index case).2.2

theorem reportOf_outcomes (check : CandidateChecker) (suite : EvaluationSuite) :
    ∃ aggregate, Tallied (outcomes check suite) aggregate ∧ reportOf suite.cases.length (outcomes check suite) =
      ⟨evaluationSchemaVersion, suite.cases.length, suite.cases.length - aggregate.failures.length, aggregate.categories,
        aggregate.transformationCoverage, aggregate.failures⟩ := by
  have empty : Tallied [] ⟨[], ⟨0, 0⟩, []⟩ := ⟨⟨.nil, by simp, by simp, by simp⟩, rfl, rfl, rfl, Nat.le_refl _⟩
  refine ⟨(outcomes check suite).foldl Aggregate.add ⟨[], ⟨0, 0⟩, []⟩, empty.foldl (coherent_outcomes check suite), ?_⟩
  rw [reportOf, mergeSort_of_pairwise (ordered_outcomes check suite)]

theorem reportOf_nil : reportOf 0 [] = ⟨evaluationSchemaVersion, 0, 0, [], ⟨0, 0⟩, []⟩ := by
  simp [reportOf]

theorem reportOf_of_isEmpty {check : CandidateChecker} {suite : EvaluationSuite} (empty : suite.cases.isEmpty = true) :
    reportOf suite.cases.length (outcomes check suite) = ⟨evaluationSchemaVersion, 0, 0, [], ⟨0, 0⟩, []⟩ := by
  rw [List.isEmpty_iff] at empty
  rw [outcomes, empty]
  exact reportOf_nil

theorem runSuite_eq (check : CandidateChecker) (suite : EvaluationSuite) :
    runSuite check suite = some (reportOf suite.cases.length (outcomes check suite)) := by
  rw [runSuite, runSuiteWithConcurrency]
  split
  next empty => rw [reportOf_of_isEmpty empty]
  next =>
    have serial : effectiveWorkers suite defaultEvaluationWorkerCap ≤ 1 := by
      simp only [effectiveWorkers, defaultEvaluationWorkerCap]
      omega
    rw [if_pos serial, outcomes]

theorem sound_startPool (check : CandidateChecker) (suite : EvaluationSuite) (workerCap : Nat) :
    (startPool suite workerCap).Sound suite.cases (executeSingleCase check) CaseExecutionOutcome.index :=
  Pool.sound_start _

theorem placed (check : CandidateChecker) (index : Nat) (case : EvaluationCase) : (executeSingleCase check index case).index = index :=
  (executeSingleCase_spec check index case).1

/-- Whatever the schedule, the report is that of the serial run. -/
theorem runSuiteWithConcurrency_eq {check : CandidateChecker} {suite : EvaluationSuite} {workerCap : Nat} {schedule : List Pool.Move}
    {report : EvaluationReport} (ran : runSuiteWithConcurrency check suite workerCap schedule = some report) :
    report = reportOf suite.cases.length (outcomes check suite) := by
  rw [runSuiteWithConcurrency] at ran
  split at ran
  next empty =>
    cases ran
    rw [reportOf_of_isEmpty empty]
  next =>
    split at ran
    · cases ran
      rfl
    · obtain ⟨pool, reached, joined⟩ := Option.bind_eq_some_iff.mp ran
      split at joined
      · cases joined
        rw [((sound_startPool check suite workerCap).run (placed check) reached).collect_eq, outcomes]
      · cases joined

/-- Every schedule is short, and can be carried on to a report. -/
theorem schedule_completes {check : CandidateChecker} {suite : EvaluationSuite} {workerCap : Nat} {schedule : List Pool.Move}
    {pool : Pool CaseExecutionOutcome}
    (ran : (startPool suite workerCap).run suite.cases (executeSingleCase check) CaseExecutionOutcome.index schedule = some pool) :
    schedule.length ≤ 2 * suite.cases.length + 2 * effectiveWorkers suite workerCap ∧
      pool.nextIndex ≤ suite.cases.length + effectiveWorkers suite workerCap ∧
      ∃ more report, runSuiteWithConcurrency check suite workerCap (schedule ++ more) = some report := by
  have bound : (startPool suite workerCap).remaining suite.cases = 2 * suite.cases.length + 2 * effectiveWorkers suite workerCap := by
    simp only [startPool, Pool.start, Pool.remaining, map_replicate, sum_replicate_nat, length_replicate, Worker.due]
    omega
  obtain ⟨length, same⟩ := Pool.run_length ran
  have sound := (sound_startPool check suite workerCap).run (placed check) ran
  have counter := sound.nextIndex_le
  rw [same, startPool, Pool.start, length_replicate] at counter
  obtain ⟨more, last, rest, joined⟩ := sound.completes (placed check)
  refine ⟨by omega, counter, more, ?_⟩
  rw [runSuiteWithConcurrency]
  split
  · exact ⟨_, rfl⟩
  split
  · exact ⟨_, rfl⟩
  · rw [Pool.run_append, ran, Option.bind_some, rest]
    simp only [Option.bind_eq_bind, Option.bind_some, joined, if_true]
    exact ⟨_, rfl⟩

theorem sumCategories_eq_ok {total passed : Nat} {categories : List CategoryResult} (within : ∀ entry ∈ categories, entry.passed ≤ entry.total)
    (fits : total + (categories.map CategoryResult.total).sum < usizeLimit) (below : passed ≤ total) : sumCategories total passed categories =
      .ok (total + (categories.map CategoryResult.total).sum, passed + (categories.map CategoryResult.passed).sum) := by
  induction categories generalizing total passed with
  | nil => simp [sumCategories]
  | cons entry rest ih =>
    obtain ⟨first, others⟩ := forall_mem_cons.mp within
    simp only [map_cons, sum_cons] at fits ⊢
    rw [sumCategories, if_neg (by omega), checkedAdd, if_pos (by omega), checkedAdd, if_pos (by omega)]
    simp only [Except.ok_bind]
    rw [ih others (by omega) (by omega), Nat.add_assoc, Nat.add_assoc]

theorem Counted.within {outcomes : List CaseExecutionOutcome} {categories : List CategoryResult} (counted : Counted outcomes categories) :
    ∀ entry ∈ categories, entry.passed ≤ entry.total := by
  intro entry member
  rw [counted.totals entry member, counted.passes entry member]
  apply countP_mono_left
  intro outcome _ both
  exact (Bool.and_eq_true _ _ ▸ both).1

/-- Every schedule of the workers ends, in the report of the serial run. That report counts every case once, in the order of the cases, and the
consistency check accepts it. -/
theorem parallel_evaluation_is_serial (check : CandidateChecker) (suite : EvaluationSuite) : ∃ report, runSuite check suite = some report ∧
      (∀ workerCap schedule parallel, runSuiteWithConcurrency check suite workerCap schedule = some parallel → parallel = report) ∧
      (∀ workerCap schedule pool,
        (startPool suite workerCap).run suite.cases (executeSingleCase check) CaseExecutionOutcome.index schedule = some pool →
        schedule.length ≤ 2 * suite.cases.length + 2 * effectiveWorkers suite workerCap ∧
        pool.nextIndex ≤ suite.cases.length + effectiveWorkers suite workerCap ∧
        ∃ more, runSuiteWithConcurrency check suite workerCap (schedule ++ more) = some report) ∧
      report.total = suite.cases.length ∧ report.failures = (outcomes check suite).filterMap CaseExecutionOutcome.failure ∧
      report.total = report.passed + report.failures.length ∧ Counted (outcomes check suite) report.categories ∧
      (report.categories.map CategoryResult.total).sum = report.total ∧ (report.categories.map CategoryResult.passed).sum = report.passed ∧
      validateReportConsistency report suite.cases.length = .ok () := by
  obtain ⟨aggregate, tallied, shape⟩ := reportOf_outcomes check suite
  have length : (outcomes check suite).length = suite.cases.length := by simp [outcomes]
  have totals := tallied.totals
  have passes := tallied.passes
  have counted := suite.counted
  rw [length] at totals passes
  refine ⟨_, runSuite_eq check suite, fun _ _ _ => runSuiteWithConcurrency_eq, ?_, ?_⟩
  · intro workerCap schedule pool ran
    obtain ⟨short, counter, more, report, carried⟩ := schedule_completes ran
    exact ⟨short, counter, more, by rw [carried, runSuiteWithConcurrency_eq carried]⟩
  · rw [shape]
    refine ⟨rfl, tallied.failures, by simp only; omega, tallied.counted, totals, by simp only; omega, ?_⟩
    rw [validateReportConsistency, sumCategories_eq_ok tallied.counted.within (by omega) (Nat.le_refl _)]
    have covered := tallied.covered
    simp only [Except.ok_bind]
    rw [if_neg]
    simp only [ne_eq, not_true_eq_false, false_or]
    omega

end Retonr.Evaluation
