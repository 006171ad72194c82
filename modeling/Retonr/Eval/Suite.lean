import Retonr.App.CandidateCheck
import Retonr.Eval.Scorecard
import Retonr.Lib.WorkPool

/-! Deterministic evaluation suites: every case is checked once, serially or by a bounded pool of workers,
and the outcomes are aggregated into one report. -/

namespace Retonr.Evaluation
open Text

def evaluationSchemaVersion : Nat := 2

def defaultEvaluationWorkerCap : Nat := 1

def maxEvaluationWorkerCap : Nat := 16

inductive ReferenceJudgment where
  | acceptable
  | unacceptable
  | identity
  | notApplicable
  deriving DecidableEq

inductive ExpectedOutput where
  | source
  | candidate

structure EvaluationCase where
  (id category source candidate : Text)
  protectedTerms : List Text
  referenceJudgment : ReferenceJudgment
  expectedStatus : RewriteStatus
  expectedReason : Option ReasonCode
  expectedOutput : ExpectedOutput

def EvaluationCase.expectedBytes (case : EvaluationCase) : Bytes :=
  match case.expectedOutput with
  | .source => encode case.source
  | .candidate => encode case.candidate

/-- The cases of a suite, as many as a machine word can count. -/
structure EvaluationSuite where
  schemaVersion : Nat
  cases : List EvaluationCase
  counted : cases.length < usizeLimit

structure EvaluationFailure where
  (id category : Text)
  expectedStatus : RewriteStatus
  actualStatus : Option RewriteStatus
  (expectedReason actualReason : Option ReasonCode)
  outputMismatch : Bool
  error : Option Text

structure CategoryResult where
  category : Text
  (total passed : Nat)

structure TransformationCoverage where
  (acceptable rewritten : Nat)

structure EvaluationReport where
  (schemaVersion total passed : Nat)
  categories : List CategoryResult
  transformationCoverage : TransformationCoverage
  failures : List EvaluationFailure

/-- The kinds of failure that the application reports. -/
inductive AppFault where
  | candidateTooLarge
  | textAdapter
  | engine
  | protection
  | grounded
  | groundedUnavailable
  | groundedSelectionMismatch
  | groundedRuntimeUnavailable
  | groundedRepository
  | claimExtraction

def AppFault.name : AppFault → Text
  | .candidateTooLarge => "candidate_too_large".toList
  | .textAdapter => "text_adapter".toList
  | .engine => "engine".toList
  | .protection => "protection".toList
  | .grounded => "grounded".toList
  | .groundedUnavailable => "grounded_unavailable".toList
  | .groundedSelectionMismatch => "grounded_selection_mismatch".toList
  | .groundedRuntimeUnavailable => "grounded_runtime_unavailable".toList
  | .groundedRepository => "grounded_repository".toList
  | .claimExtraction => "claim_extraction".toList

structure CaseExecutionOutcome where
  index : Nat
  category : Text
  (acceptableIncrement rewrittenIncrement : Nat)
  passed : Bool
  failure : Option EvaluationFailure

def operationalFailure (case : EvaluationCase) (fault : AppFault) : EvaluationFailure :=
  ⟨case.id, case.category, case.expectedStatus, none, case.expectedReason, none, false, some fault.name⟩

/-- The check of one candidate, a pure function of what is asked. -/
abbrev CandidateChecker := CandidateCheckRequest → Except AppFault CandidateCheckResult

def executeSingleCase (check : CandidateChecker) (index : Nat) (case : EvaluationCase) : CaseExecutionOutcome :=
  match check ⟨encode case.source, case.candidate, case.protectedTerms, none, none⟩ with
  | .ok result =>
      let changed := case.referenceJudgment = .acceptable ∧ encode case.source ≠ encode case.candidate
      let acceptableIncrement := if changed then 1 else 0
      let rewrittenIncrement := if changed ∧ result.record.status = .rewritten ∧ result.output = encode case.candidate then 1 else 0
      let outputMismatch := result.output != case.expectedBytes
      if result.record.status = case.expectedStatus ∧ result.record.reason = case.expectedReason ∧ outputMismatch = false then
        ⟨index, case.category, acceptableIncrement, rewrittenIncrement, true, none⟩
      else
        ⟨index, case.category, acceptableIncrement, rewrittenIncrement, false,
          some ⟨case.id, case.category, case.expectedStatus, some result.record.status, case.expectedReason, result.record.reason,
            outputMismatch, none⟩⟩
  | .error fault => ⟨index, case.category, 0, 0, false, some (operationalFailure case fault)⟩

/-- Counts a case under its category; the categories stand in the order of their names. -/
def countCategory (category : Text) (passed : Bool) : List CategoryResult → List CategoryResult
  | [] => [⟨category, 1, passed.toNat⟩]
  | entry :: rest =>
      if category < entry.category then ⟨category, 1, passed.toNat⟩ :: entry :: rest
      else if category = entry.category then { entry with total := entry.total + 1, passed := entry.passed + passed.toNat } :: rest
      else entry :: countCategory category passed rest

/-- What the report gathers from the outcomes. -/
structure Aggregate where
  categories : List CategoryResult
  transformationCoverage : TransformationCoverage
  failures : List EvaluationFailure

def Aggregate.add (aggregate : Aggregate) (outcome : CaseExecutionOutcome) : Aggregate where
  categories := countCategory outcome.category outcome.passed aggregate.categories
  transformationCoverage :=
    ⟨aggregate.transformationCoverage.acceptable + outcome.acceptableIncrement,
      aggregate.transformationCoverage.rewritten + outcome.rewrittenIncrement⟩
  failures := aggregate.failures ++ outcome.failure.toList

def reportOf (totalCases : Nat) (outcomes : List CaseExecutionOutcome) : EvaluationReport :=
  let sorted := outcomes.mergeSort fun outcome other => decide (outcome.index ≤ other.index)
  let aggregate := sorted.foldl Aggregate.add ⟨[], ⟨0, 0⟩, []⟩
  { schemaVersion := evaluationSchemaVersion
    total := totalCases
    passed := totalCases - aggregate.failures.length
    categories := aggregate.categories
    transformationCoverage := aggregate.transformationCoverage
    failures := aggregate.failures }

def effectiveWorkers (suite : EvaluationSuite) (workerCap : Nat) : Nat := min (min (max workerCap 1) maxEvaluationWorkerCap) suite.cases.length

def startPool (suite : EvaluationSuite) (workerCap : Nat) : Pool CaseExecutionOutcome := Pool.start suite.cases (effectiveWorkers suite workerCap)

/-- The report that a schedule of the workers leads to, once all of them are joined. A serial run needs no schedule. -/
def runSuiteWithConcurrency (check : CandidateChecker) (suite : EvaluationSuite) (workerCap : Nat) (schedule : List Pool.Move) :
    Option EvaluationReport :=
  if suite.cases.isEmpty then some ⟨evaluationSchemaVersion, 0, 0, [], ⟨0, 0⟩, []⟩
  else if effectiveWorkers suite workerCap ≤ 1 then
    some (reportOf suite.cases.length (suite.cases.zipIdx.map fun (case, index) => executeSingleCase check index case))
  else do
    let pool ← (startPool suite workerCap).run suite.cases (executeSingleCase check) CaseExecutionOutcome.index schedule
    if pool.joined = pool.workers.length then some (reportOf suite.cases.length (pool.collect suite.cases (executeSingleCase check))) else none

def runSuite (check : CandidateChecker) (suite : EvaluationSuite) : Option EvaluationReport :=
  runSuiteWithConcurrency check suite defaultEvaluationWorkerCap []

/-! ### The consistency check of a report -/

def checkedAdd (left right : Nat) : Except Scorecard.ScorecardError Nat :=
  if left + right < usizeLimit then .ok (left + right) else .error .invalidDeterministicReport

def sumCategories : Nat → Nat → List CategoryResult → Except Scorecard.ScorecardError (Nat × Nat)
  | total, passed, [] => .ok (total, passed)
  | total, passed, category :: rest =>
      if category.total < category.passed then .error .invalidDeterministicReport
      else do
        let total ← checkedAdd total category.total
        let passed ← checkedAdd passed category.passed
        sumCategories total passed rest

def validateReportConsistency (report : EvaluationReport) (expectedTotal : Nat) : Except Scorecard.ScorecardError Unit := do
  let (categoryTotal, categoryPassed) ← sumCategories 0 0 report.categories
  if report.schemaVersion ≠ evaluationSchemaVersion ∨ report.total ≠ expectedTotal ∨ report.total < report.passed ∨
      report.failures.length ≠ report.total - report.passed ∨
      report.transformationCoverage.acceptable < report.transformationCoverage.rewritten ∨
      categoryTotal ≠ report.total ∨ categoryPassed ≠ report.passed then .error .invalidDeterministicReport
  else .ok ()

end Retonr.Evaluation
