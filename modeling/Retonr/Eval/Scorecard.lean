import Retonr.Inference.Contract
import Retonr.Lib.Json
import Retonr.Lib.Table

/-! The hybrid scorecard: a frozen plan of candidate pairs, and the judge's observations of every pair in
both orders, normalized to one outcome per case. -/

namespace Retonr.Scorecard
open Text

def hybridScorecardSchemaVersion : Nat := 1

def maxHybridScorecardBytes : Nat := 4 * 1024 * 1024

def maxScorecardCases : Nat := 10000

def maxRubricClausesPerCase : Nat := 32

def maxExecutedJudgeCases : Nat := 256

def maxJudgeInputBytes : Nat := 4 * 1024 * 1024

def maxJudgeSourceBytes : Nat := 1024 * 1024

def maxJudgeCandidateBytes : Nat := 1024 * 1024

def maxJudgeContextTokens : Nat := 131072

def maxJudgeOutputTokens : Nat := 8192

def maxJudgeElapsedMillis : Nat := 60 * 60 * 1000

def minJudgeResponseBytes : Nat := 256

def maxJudgeResponseBytes : Nat := 64 * 1024

/-- The intended judge and the bounds of its execution. Execution, authority and order policy have one value each. -/
structure LocalJudgePolicy where
  judgeSystemDigest : Digest
  judgeModelReference : Text
  (judgeModelDigest judgePromptContractDigest judgeOutputSchemaDigest : Digest)
  (presentationSeed temperatureMilli topPMilli attemptsPerOrder maxJudgeCases maxSourceBytes maxCandidateBytes maxInputBytes : Nat)
  (contextTokenLimit outputTokenLimit maxResponseBytes maximumElapsedMillis : Nat)

structure CasePlan where
  (id clusterId : Text)
  (sourceDigest candidateADigest candidateBDigest candidateASystemDigest candidateBSystemDigest : Digest)
  rubricClauses : List Text

structure Plan where
  schemaVersion : Nat
  planId : Text
  (corpusDigest rubricDigest deterministicPolicyDigest : Digest)
  judge : LocalJudgePolicy
  cases : List CasePlan

inductive JudgePresentation where
  | candidateAFirst
  | candidateBFirst
  deriving DecidableEq

/-- A choice relative to the presented order. -/
inductive JudgeChoice where
  | first
  | second
  | tie
  | abstain

structure JudgeObservation where
  caseId : Text
  presentation : JudgePresentation
  choice : JudgeChoice
  rubricClauses : List Text

structure JudgeObservationBatch where
  schemaVersion : Nat
  planId : Text
  planDigest : Digest
  observations : List JudgeObservation

inductive JudgeCaseOutcome where
  | stableA
  | stableB
  | stableTie
  | abstained
  | orderSensitive
  deriving DecidableEq

structure JudgeCaseResult where
  caseId : Text
  outcome : JudgeCaseOutcome
  deriving DecidableEq

structure JudgeTriageSummary where
  (total stableA stableB stableTie abstained orderSensitive : Nat)
  cases : List JudgeCaseResult
  deriving DecidableEq

inductive ScorecardError where
  | tooLarge
  | unsupportedSchema (version : Nat)
  | invalidPlan
  | invalidDeterministicReport
  | invalidCase (index : Nat)
  | invalidObservations
  deriving DecidableEq

/-- The digests of the fixed prompt contract and of the fixed output schema. -/
structure JudgeContracts where
  (promptContractDigest outputSchemaDigest : Digest)

def LocalJudgePolicy.toJson (judge : LocalJudgePolicy) : Text :=
  Json.object
    [("execution".toList, Json.string "local_isolated".toList),
     ("authority".toList, Json.string "triage_only".toList),
     ("order_policy".toList, Json.string "both_orders".toList),
     ("judge_system_digest".toList, Json.string judge.judgeSystemDigest.asStr),
     ("judge_model_reference".toList, Json.string judge.judgeModelReference),
     ("judge_model_digest".toList, Json.string judge.judgeModelDigest.asStr),
     ("judge_prompt_contract_digest".toList, Json.string judge.judgePromptContractDigest.asStr),
     ("judge_output_schema_digest".toList, Json.string judge.judgeOutputSchemaDigest.asStr),
     ("presentation_seed".toList, Json.number judge.presentationSeed),
     ("temperature_milli".toList, Json.number judge.temperatureMilli),
     ("top_p_milli".toList, Json.number judge.topPMilli),
     ("attempts_per_order".toList, Json.number judge.attemptsPerOrder),
     ("max_judge_cases".toList, Json.number judge.maxJudgeCases),
     ("max_source_bytes".toList, Json.number judge.maxSourceBytes),
     ("max_candidate_bytes".toList, Json.number judge.maxCandidateBytes),
     ("max_input_bytes".toList, Json.number judge.maxInputBytes),
     ("context_token_limit".toList, Json.number judge.contextTokenLimit),
     ("output_token_limit".toList, Json.number judge.outputTokenLimit),
     ("max_response_bytes".toList, Json.number judge.maxResponseBytes),
     ("maximum_elapsed_millis".toList, Json.number judge.maximumElapsedMillis)]

def CasePlan.toJson (case : CasePlan) : Text :=
  Json.object
    [("id".toList, Json.string case.id),
     ("cluster_id".toList, Json.string case.clusterId),
     ("source_digest".toList, Json.string case.sourceDigest.asStr),
     ("candidate_a_digest".toList, Json.string case.candidateADigest.asStr),
     ("candidate_b_digest".toList, Json.string case.candidateBDigest.asStr),
     ("candidate_a_system_digest".toList, Json.string case.candidateASystemDigest.asStr),
     ("candidate_b_system_digest".toList, Json.string case.candidateBSystemDigest.asStr),
     ("rubric_clauses".toList, Json.array (case.rubricClauses.map Json.string))]

def Plan.toJson (plan : Plan) : Text :=
  Json.object
    [("schema_version".toList, Json.number plan.schemaVersion),
     ("plan_id".toList, Json.string plan.planId),
     ("corpus_digest".toList, Json.string plan.corpusDigest.asStr),
     ("rubric_digest".toList, Json.string plan.rubricDigest.asStr),
     ("deterministic_policy_digest".toList, Json.string plan.deterministicPolicyDigest.asStr),
     ("judge".toList, plan.judge.toJson),
     ("cases".toList, Json.array (plan.cases.map CasePlan.toJson))]

def isLabelChar (char : Char) : Bool := char.isLower || char.isDigit

def validLabel (value : Text) : Bool :=
  !value.isEmpty && decide (byteLen value ≤ 64) && value.all fun char => isLabelChar char || char == '-' || char == '_'

/-- Whether the character stands twice in a row somewhere in the text. -/
def containsDoubled (char : Char) (value : Text) : Bool := decide ([char, char] <:+: value)

def validModelReference (value : Text) : Bool :=
  !value.isEmpty && decide (byteLen value ≤ 256) &&
    value.all (fun char => isLabelChar char || char == '-' || char == '_' || char == '.' || char == ':' || char == '/') &&
    value.head?.any isLabelChar && value.getLast?.any isLabelChar && !containsDoubled '.' value && !containsDoubled '/' value &&
    !containsDoubled ':' value

def strictlyIncreasing (values : List Text) : Bool := pairwiseAdjacent (fun left right => decide (left < right)) values

def validCase (case : CasePlan) (judgeSystem : Digest) (allowEqualCandidates : Bool) : Bool :=
  validLabel case.id && validLabel case.clusterId && (allowEqualCandidates || case.candidateADigest != case.candidateBDigest) &&
    case.candidateASystemDigest != judgeSystem && case.candidateBSystemDigest != judgeSystem && !case.rubricClauses.isEmpty &&
    decide (case.rubricClauses.length ≤ maxRubricClausesPerCase) && case.rubricClauses.all validLabel && strictlyIncreasing case.rubricClauses

def validJudge (contracts : JudgeContracts) (judge : LocalJudgePolicy) (cases : Nat) : Bool :=
  validModelReference judge.judgeModelReference && judge.judgePromptContractDigest == contracts.promptContractDigest &&
    judge.judgeOutputSchemaDigest == contracts.outputSchemaDigest && judge.temperatureMilli == 0 && judge.topPMilli == 1000 &&
    judge.attemptsPerOrder == 1 && judge.maxJudgeCases != 0 && decide (judge.maxJudgeCases ≤ maxExecutedJudgeCases) &&
    decide (cases ≤ judge.maxJudgeCases) && decide (1 ≤ judge.maxSourceBytes ∧ judge.maxSourceBytes ≤ maxJudgeSourceBytes) &&
    decide (1 ≤ judge.maxCandidateBytes ∧ judge.maxCandidateBytes ≤ maxJudgeCandidateBytes) &&
    decide (1 ≤ judge.maxInputBytes ∧ judge.maxInputBytes ≤ maxJudgeInputBytes) && decide (judge.maxSourceBytes ≤ judge.maxInputBytes) &&
    decide (judge.maxCandidateBytes ≤ judge.maxInputBytes) &&
    decide (1 ≤ judge.contextTokenLimit ∧ judge.contextTokenLimit ≤ maxJudgeContextTokens) &&
    decide (1 ≤ judge.outputTokenLimit ∧ judge.outputTokenLimit ≤ maxJudgeOutputTokens) &&
    decide (minJudgeResponseBytes ≤ judge.maxResponseBytes ∧ judge.maxResponseBytes ≤ maxJudgeResponseBytes) &&
    decide (1 ≤ judge.maximumElapsedMillis ∧ judge.maximumElapsedMillis ≤ maxJudgeElapsedMillis)

/-- The cases from the given position on, each behind the one before it. -/
def validateCases (judgeSystem : Digest) (allowEqualCandidates : Bool) : Nat → Option Text → List CasePlan → Except ScorecardError Unit
  | _, _, [] => .ok ()
  | index, previous, case :: rest =>
      if validCase case judgeSystem allowEqualCandidates = false ∨ previous.any (fun id => decide (case.id ≤ id)) = true then .error (.invalidCase index)
      else validateCases judgeSystem allowEqualCandidates (index + 1) (some case.id) rest

def validatePlanWithCandidateEquality (contracts : JudgeContracts) (plan : Plan) (allowEqualCandidates : Bool) : Except ScorecardError Unit :=
  if plan.schemaVersion ≠ hybridScorecardSchemaVersion then .error (.unsupportedSchema plan.schemaVersion)
  else if maxHybridScorecardBytes < byteLen plan.toJson then .error .tooLarge
  else if validLabel plan.planId = false ∨ plan.cases.isEmpty = true ∨ maxScorecardCases < plan.cases.length ∨
      validJudge contracts plan.judge plan.cases.length = false then .error .invalidPlan
  else validateCases plan.judge.judgeSystemDigest allowEqualCandidates 0 none plan.cases

def validatePlan (contracts : JudgeContracts) (plan : Plan) : Except ScorecardError Unit := validatePlanWithCandidateEquality contracts plan false

inductive UnderlyingChoice where
  | a
  | b
  | tie
  | abstain
  deriving DecidableEq

def underlying : JudgePresentation → JudgeChoice → UnderlyingChoice
  | _, .tie => .tie
  | _, .abstain => .abstain
  | .candidateAFirst, .first | .candidateBFirst, .second => .a
  | .candidateAFirst, .second | .candidateBFirst, .first => .b

def normalizePair (initial swapped : JudgeChoice) : JudgeCaseOutcome :=
  let initial := underlying .candidateAFirst initial
  let swapped := underlying .candidateBFirst swapped
  if initial = .abstain ∨ swapped = .abstain then .abstained
  else
    match initial, swapped with
    | .a, .a => .stableA
    | .b, .b => .stableB
    | .tie, .tie => .stableTie
    | _, _ => .orderSensitive

def validClauses (observed planned : List Text) : Bool :=
  !observed.isEmpty && decide (observed.length ≤ maxRubricClausesPerCase) && strictlyIncreasing observed && observed.all fun clause => planned.contains clause

abbrev ObservationTable := Table (Text × JudgePresentation) JudgeObservation

/-- The observations under their cases and presentations. -/
def collectObservations (plans : Table Text CasePlan) : List JudgeObservation → ObservationTable → Except ScorecardError ObservationTable
  | [], observations => .ok observations
  | observation :: rest, observations =>
      match plans.find observation.caseId with
      | none => .error .invalidObservations
      | some case =>
          if validClauses observation.rubricClauses case.rubricClauses = false ∨
              (observations.find (observation.caseId, observation.presentation)).isSome = true then .error .invalidObservations
          else collectObservations plans rest (observations.upsert (observation.caseId, observation.presentation) observation)

namespace JudgeTriageSummary

def empty (total : Nat) : JudgeTriageSummary := ⟨total, 0, 0, 0, 0, 0, []⟩

def record (summary : JudgeTriageSummary) (caseId : Text) (outcome : JudgeCaseOutcome) : JudgeTriageSummary :=
  let counted :=
    match outcome with
    | .stableA => { summary with stableA := summary.stableA + 1 }
    | .stableB => { summary with stableB := summary.stableB + 1 }
    | .stableTie => { summary with stableTie := summary.stableTie + 1 }
    | .abstained => { summary with abstained := summary.abstained + 1 }
    | .orderSensitive => { summary with orderSensitive := summary.orderSensitive + 1 }
  { counted with cases := counted.cases ++ [⟨caseId, outcome⟩] }

end JudgeTriageSummary

def summarizeCases (observations : ObservationTable) : List CasePlan → JudgeTriageSummary → Except ScorecardError JudgeTriageSummary
  | [], summary => .ok summary
  | case :: rest, summary =>
      match observations.find (case.id, .candidateAFirst), observations.find (case.id, .candidateBFirst) with
      | some initial, some swapped => summarizeCases observations rest (summary.record case.id (normalizePair initial.choice swapped.choice))
      | _, _ => .error .invalidObservations

def plansById (plan : Plan) : Table Text CasePlan := plan.cases.foldl (fun plans case => plans.upsert case.id case) .empty

def normalizeObservations (plan : Plan) (batch : JudgeObservationBatch) : Except ScorecardError JudgeTriageSummary :=
  if batch.observations.length ≠ min (plan.cases.length * 2) (usizeLimit - 1) then .error .invalidObservations
  else do
    let observations ← collectObservations (plansById plan) batch.observations .empty
    summarizeCases observations plan.cases (.empty plan.cases.length)

end Retonr.Scorecard
