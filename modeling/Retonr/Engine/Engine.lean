import Retonr.Engine.ClaimShadow
import Retonr.Engine.Generator
import Retonr.Engine.SpanReport

/-! The validation cascade and the engine run. Candidates of a unit are assessed gate
by gate, the best eligible one is selected, and a document either gets an
edit decision for every unit or abstains as a whole. -/

namespace Retonr
open Text

/-- What the engine uses from outside the modelled code. -/
structure Environment where
  unicode : Unicode
  lintFindings : Text → Nat

inductive StructureAssessment where
  | preserved
  | unsafeText
  | changed
  deriving DecidableEq

structure StructureValidator where
  validate : RewriteUnit → Text → StructureAssessment

/-- The points at which a run polls for cancellation. -/
inductive PollPoint where
  | start
  | unitStart (unitId : RewriteUnitId)
  | planned (unitId : RewriteUnitId)
  | generated (unitId : RewriteUnitId)
  | assessed (candidateId : CandidateId)
  | finish

/-- The answers a cancellation token gives at the points where it is polled. -/
structure CancellationToken where
  isCancelled : PollPoint → Bool

namespace CancellationToken

def never : CancellationToken := ⟨fun _ => false⟩

end CancellationToken

structure EngineOutcome where
  status : RewriteStatus
  reason : Option ReasonCode
  edits : List AcceptedEdit
  assessments : List CandidateAssessment
  selectedCandidates : List CandidateId

namespace EngineOutcome

def abstained (reason : ReasonCode) (assessments : List CandidateAssessment) : EngineOutcome :=
  { status := .abstained, reason := some reason, edits := [], assessments, selectedCandidates := [] }

end EngineOutcome

structure UnitProgress where
  selected : CandidateId
  replacement : Option Text
  assessments : List CandidateAssessment

structure EligibleCandidate where
  generated : GeneratedCandidate
  restored : Text

structure EvaluatedCandidate where
  assessment : CandidateAssessment
  candidate : EligibleCandidate
  reason : Option ReasonCode

namespace Gates

def unitGate : Text := "candidate_unit".toList

def candidateGate : Text := "candidate_contract".toList

def sentinelGate : Text := "sentinel_integrity".toList

def protectedGate : Text := "protected_values".toList

def structureGate : Text := "structure".toList

def layoutGate : Text := "layout_constraints".toList

def semanticGate : Text := "semantic_fidelity".toList

def semanticMessage : SemanticEvidenceCode → Text
  | .literalTokensEqual => "literal token sequence was preserved".toList
  | .literalTokensChanged => "literal token sequence changed".toList
  | .unsupportedMode => "semantic evaluator does not support this mode".toList
  | .claimComparisonPreserved => "typed claim comparison found no conflict".toList
  | .claimComparisonConflict => "typed claim comparison found a conflict".toList
  | .claimComparisonUncertain => "typed claim comparison retained uncertainty".toList

def semanticEvidence (evidence : SemanticEvidence) : GateEvidence where
  code := evidence.code.asStr
  message := semanticMessage evidence.code
  details := evidence.details.map fun | .claimComparison comparison => .claimComparison comparison

def invalidSemanticGate : GateResult × Bool × ReasonCode :=
  ({ gateId := semanticGate
     gateVersion := "semantic-evidence-contract-v1".toList
     status := .uncertain
     severity := .error
     evidence :=
       [{ code := "invalid_evaluator_evidence".toList
          message := "semantic evaluator returned malformed or unbounded evidence".toList
          details := none }]
     confidence := none }, false, .semanticUncertain)

/-- A count that stops at the largest 32-bit value. -/
def saturatingCount (values : List ProtectedValue) (counted : ProtectedValue → Bool) : Nat :=
  min (values.countP counted) (u32Limit - 1)

def protectedValuesPass (plan : ProtectionPlan) : GateResult :=
  let summary : InvariantEvidenceSummary :=
    { declaredTerms := saturatingCount plan.values (·.kind == .declaredTerm)
      urls := saturatingCount plan.values (·.kind == .url)
      emails := saturatingCount plan.values (·.kind == .email)
      numbers := saturatingCount plan.values (·.kind == .number)
      total := saturatingCount plan.values fun _ => true }
  { gateId := protectedGate
    gateVersion := ['1']
    status := .pass
    severity := .error
    evidence :=
      [{ code := "invariant_counts".toList
         message := "exact protected invariant counts were preserved".toList
         details := some (.invariantSummary summary) }]
    confidence := none }

def ineligible (candidate : GeneratedCandidate) (assessedUnitId : RewriteUnitId) (restored : Text) (gates : List GateResult)
    (reason : ReasonCode) : EvaluatedCandidate :=
  { assessment := { candidateId := candidate.id, unitId := assessedUnitId, eligible := false, gates }
    candidate := { generated := candidate, restored }
    reason := some reason }

/-- The two metadata gates, or the rejection they lead to. -/
def validateCandidateMetadata (unit : RewriteUnit) (candidate : GeneratedCandidate) : Except EvaluatedCandidate (List GateResult) :=
  if candidate.unitId ≠ unit.id then
    .error (ineligible candidate unit.id []
      [.fail unitGate "unit_mismatch".toList "candidate targets a different rewrite unit".toList] .structureChanged)
  else if Policy.candidateContractIsValid candidate = false then
    .error (ineligible candidate unit.id []
      [.pass unitGate, .fail candidateGate "invalid_candidate_contract".toList
        "candidate size, identity, or ranking metadata violates engine limits".toList] .invalidCandidate)
  else .ok [.pass unitGate, .pass candidateGate]

def protectionCode : ProtectionError → Text
  | .reservedTokenInSource => "reserved_token".toList
  | .protectedOccurrenceCount => "protected_occurrence_count".toList
  | .sentinelOccurrenceCount => "sentinel_occurrence_count".toList
  | .unknownSentinel => "unknown_sentinel".toList
  | .matcherBuild => "matcher_build".toList
  | .resourceLimit => "protection_resource_limit".toList
  | .invalidDeclaredTerms => "invalid_declared_terms".toList
  | .ambiguousSurfaceMapping => "ambiguous_surface_mapping".toList

def protectionFailure (gateId : Text) (fault : ProtectionError) : GateResult :=
  .fail gateId (protectionCode fault) "candidate did not preserve protected-value integrity".toList

def protectionReason : ProtectionError → ReasonCode
  | .protectedOccurrenceCount => .protectedValueChanged
  | _ => .sentinelIntegrity

def surfaceEditCost (source candidate : Text) : Nat :=
  let substitutions := (source.zip candidate).countP fun pair => pair.1 != pair.2
  let lengthDelta := (source.length - candidate.length) + (candidate.length - source.length)
  min (substitutions + lengthDelta) (usizeLimit - 1)

def countLines (text : Text) : Nat := if text = [] then 0 else text.count '\n' + 1

/-- The first exceeded character bound, if any. -/
def characterBudgetFault (budget : CharacterBudget) (source restored : Text) : Option (Text × Text) :=
  if budget.minCharacters.any (restored.length < ·) then
    some ("character_budget_underflow".toList, "candidate character count is below minimum budget".toList)
  else if budget.maxCharacters.any (· < restored.length) then
    some ("character_budget_exceeded".toList, "candidate character count exceeds maximum budget".toList)
  else if budget.maxExpansionPercent.any fun percent =>
      min (source.length * (100 + percent.toNat)) (usizeLimit - 1) / 100 < restored.length then
    some ("character_expansion_exceeded".toList, "candidate character expansion exceeds allowed percentage".toList)
  else none

def lineBudgetFault (budget : LineBudget) (source restored : Text) : Option (Text × Text) :=
  if budget.maxLines.any (· < countLines restored) then
    some ("line_budget_exceeded".toList, "candidate line count exceeds maximum line budget".toList)
  else if budget.preserveLineCount && countLines restored != countLines source then
    some ("line_count_mismatch".toList, "candidate line count does not match source line count".toList)
  else none

def validateLayoutConstraints (unit : RewriteUnit) (restored : Text) (options : RewriteOptions) :
    Option (GateResult × ReasonCode) :=
  options.layout.map fun layout =>
    match layout.characterBudget.bind fun budget => characterBudgetFault budget unit.text restored with
    | some (code, message) => (.fail layoutGate code message, .characterBudgetExceeded)
    | none =>
        match layout.lineBudget.bind fun budget => lineBudgetFault budget unit.text restored with
        | some (code, message) => (.fail layoutGate code message, .lineBudgetExceeded)
        | none => (.pass layoutGate, .characterBudgetExceeded)

def retainedStructureGate : StructureAssessment → GateResult × ReasonCode
  | .preserved => (.pass structureGate, .structureChanged)
  | .unsafeText =>
      (.fail structureGate "unsafe_text_control".toList "candidate introduced an unsafe text control".toList, .unsafeText)
  | .changed =>
      (.fail structureGate "structure_changed".toList "candidate changed a source structural invariant".toList, .structureChanged)

/-- Replaces the details of a gate's first finding. -/
def attachSpanDetails (gate : GateResult) (details : Option GateEvidenceDetails) : GateResult :=
  match details, gate.evidence with
  | some details, first :: rest => { gate with evidence := { first with details := some details } :: rest }
  | _, _ => gate

def annotateStructureGate (gate : GateResult) (assessment : StructureAssessment) (source restored : Text) : GateResult :=
  match assessment with
  | .preserved => gate
  | .unsafeText => attachSpanDetails gate (SpanReport.unsafeDetails source restored)
  | .changed => attachSpanDetails gate (SpanReport.structureDetails source restored)

def rejectUnprotected (unicode : Unicode) (candidate : GeneratedCandidate) (unit : RewriteUnit) (options : RewriteOptions)
    (fault : ProtectionError) (gates : List GateResult) : EvaluatedCandidate :=
  let gate := protectionFailure sentinelGate fault
  let located :=
    if fault = .protectedOccurrenceCount ∧ candidate.textKind = .raw then
      attachSpanDetails gate (SpanReport.protectionDetails unicode unit.text candidate.text options.protectedTerms)
    else gate
  ineligible candidate unit.id [] (gates ++ [located]) (protectionReason fault)

end Gates

/-- The engine with its ports. -/
structure RewriteEngine where
  environment : Environment
  generator : CandidateGenerator
  semantic : SemanticEvaluator
  structural : StructureValidator
  claimShadow : Option ClaimShadowObserver

namespace RewriteEngine
open Gates

def withClaimShadow (engine : RewriteEngine) (observer : ClaimShadowObserver) : RewriteEngine :=
  { engine with claimShadow := some observer }

def attachClaimShadow (engine : RewriteEngine) (unitId : RewriteUnitId) (source candidate : Text) (gates : List GateResult) :
    List GateResult :=
  gates ++ (engine.claimShadow.bind fun observer => ClaimShadow.shadowGate observer unitId source candidate).toList

/-- The gate for an evaluator response that satisfied its contract. -/
def retainedSemanticGate (engine : RewriteEngine) (source candidate : Text) (options : RewriteOptions)
    (semantic : SemanticAssessment) : GateResult × Bool × ReasonCode :=
  let confidencePassed := semantic.confidence.any fun value => Binary32.le options.minimumSemanticConfidence value
  let passed := semantic.status == .pass && confidencePassed
  let status := if semantic.status = .pass ∧ confidencePassed = false then .uncertain else semantic.status
  let reason : ReasonCode := if status = .fail then .semanticMismatch else .semanticUncertain
  let gate : GateResult :=
    { gateId := Gates.semanticGate
      gateVersion := engine.semantic.id
      status
      severity := .error
      evidence := semantic.evidence.map semanticEvidence
      confidence := semantic.confidence }
  let located :=
    if !passed && gate.evidence.any (·.code == "literal_tokens_changed".toList) then
      attachSpanDetails gate (SpanReport.literalTokenDetails engine.environment.unicode source candidate)
    else gate
  if located.validate = .ok () then (located, passed, reason) else invalidSemanticGate

def semanticGate (engine : RewriteEngine) (unitId : RewriteUnitId) (source candidate : Text) (options : RewriteOptions) :
    GateResult × Bool × ReasonCode :=
  let semantic := engine.semantic.evaluate source candidate options.mode
  if semantic.validate ≠ .ok () ∨ Semantic.evidenceMatches semantic unitId source candidate = false then invalidSemanticGate
  else engine.retainedSemanticGate source candidate options semantic

/-- The sentinel form of a candidate, whichever form it was written in. -/
def maskedForm (unicode : Unicode) (plan : ProtectionPlan) (candidate : GeneratedCandidate) : Except ProtectionError Text :=
  match candidate.textKind with
  | .masked => (plan.validateMasked unicode candidate.text).map fun _ => candidate.text
  | .raw => plan.maskRawCandidate unicode candidate.text

/-- The semantic gate and the decision, for a restored text that passed every earlier gate. -/
def assessMeaning (engine : RewriteEngine) (unit : RewriteUnit) (candidate : GeneratedCandidate) (options : RewriteOptions)
    (restored : Text) (gates : List GateResult) : EvaluatedCandidate :=
  let (gate, passed, reason) := engine.semanticGate unit.id unit.text restored options
  let gates := engine.attachClaimShadow unit.id unit.text restored (gates ++ [gate])
  if passed = false then ineligible candidate unit.id restored gates reason
  else
    let rank :=
      { candidate.rank with
        editCost := surfaceEditCost unit.text restored
        editorialPenalty := min (engine.environment.lintFindings restored) (u32Limit - 1) }
    { assessment := { candidateId := candidate.id, unitId := candidate.unitId, eligible := true, gates }
      candidate := { generated := { candidate with rank }, restored }
      reason := none }

/-- The structure and layout gates, for a candidate whose protected values were restored. -/
def assessRestored (engine : RewriteEngine) (unit : RewriteUnit) (candidate : GeneratedCandidate) (options : RewriteOptions)
    (restored : Text) (gates : List GateResult) : EvaluatedCandidate :=
  let assessment := engine.structural.validate unit restored
  let (gate, reason) := retainedStructureGate assessment
  let gates := gates ++ [annotateStructureGate gate assessment unit.text restored]
  if assessment ≠ .preserved then
    ineligible candidate unit.id restored (engine.attachClaimShadow unit.id unit.text restored gates) reason
  else
    match validateLayoutConstraints unit restored options with
    | none => engine.assessMeaning unit candidate options restored gates
    | some (layout, layoutReason) =>
        if layout.status ≠ .pass then ineligible candidate unit.id restored (gates ++ [layout]) layoutReason
        else engine.assessMeaning unit candidate options restored (gates ++ [layout])

def assessCandidate (engine : RewriteEngine) (unit : RewriteUnit) (candidate : GeneratedCandidate) (plan : ProtectionPlan)
    (options : RewriteOptions) : EvaluatedCandidate :=
  let unicode := engine.environment.unicode
  match validateCandidateMetadata unit candidate with
  | .error evaluated => evaluated
  | .ok gates =>
      match maskedForm unicode plan candidate with
      | .error fault => rejectUnprotected unicode candidate unit options fault gates
      | .ok masked =>
          let gates := gates ++ [.pass sentinelGate]
          match plan.restore unicode masked with
          | .error fault =>
              ineligible candidate unit.id [] (gates ++ [protectionFailure protectedGate fault]) (protectionReason fault)
          | .ok restored => engine.assessRestored unit candidate options restored (gates ++ [protectedValuesPass plan])

/-- What the assessment loop has collected so far. -/
structure BatchState where
  eligible : List EligibleCandidate
  reason : Option ReasonCode
  assessments : List CandidateAssessment

namespace BatchState

def record (state : BatchState) (evaluated : EvaluatedCandidate) : BatchState where
  eligible := if evaluated.assessment.eligible then state.eligible ++ [evaluated.candidate] else state.eligible
  reason :=
    if evaluated.assessment.eligible then state.reason
    else
      match evaluated.reason with
      | some reason => some (Policy.preferredReason state.reason reason)
      | none => state.reason
  assessments := state.assessments ++ [evaluated.assessment]

end BatchState

/-- The assessment loop: every candidate is recorded, and cancellation is polled after each. -/
def assessBatch (engine : RewriteEngine) (unit : RewriteUnit) (plan : ProtectionPlan) (options : RewriteOptions)
    (cancellation : CancellationToken) : List GeneratedCandidate → BatchState → Except EngineOutcome BatchState
  | [], state => .ok state
  | candidate :: candidates, state =>
      let recorded := state.record (engine.assessCandidate unit candidate plan options)
      if cancellation.isCancelled (.assessed candidate.id) then .error (.abstained .cancelled recorded.assessments)
      else engine.assessBatch unit plan options cancellation candidates recorded

/-- The decision once every candidate of the unit has been assessed. -/
def decideUnit (unit : RewriteUnit) (state : BatchState) : Except EngineOutcome UnitProgress :=
  match maxBy (fun left right => compareCandidates left.generated right.generated) state.eligible with
  | none => .error (.abstained (state.reason.getD .noCandidate) state.assessments)
  | some selected =>
      .ok { selected := selected.generated.id
            replacement := if selected.restored ≠ unit.text then some selected.restored else none
            assessments := state.assessments }

def generationRequest (unit : RewriteUnit) (plan : ProtectionPlan) (options : RewriteOptions) : GenerationRequest where
  unitId := unit.id
  maskedSource := plan.maskedSource
  protectedValues := plan.values
  mode := options.mode

/-- Assesses and decides a batch the generator returned for a planned unit. -/
def evaluateBatch (engine : RewriteEngine) (unit : RewriteUnit) (plan : ProtectionPlan) (options : RewriteOptions)
    (cancellation : CancellationToken) (candidates : List GeneratedCandidate) (assessments : List CandidateAssessment) :
    Except EngineOutcome UnitProgress :=
  if cancellation.isCancelled (.generated unit.id) then .error (.abstained .cancelled assessments)
  else
    match Policy.candidateBatchReason unit.id candidates with
    | some reason => .error (.abstained reason assessments)
    | none => do
        let state ← engine.assessBatch unit plan options cancellation candidates ⟨[], none, assessments⟩
        decideUnit unit state

def evaluateUnit (engine : RewriteEngine) (unit : RewriteUnit) (options : RewriteOptions) (cancellation : CancellationToken)
    (assessments : List CandidateAssessment) : Except EngineError (Except EngineOutcome UnitProgress) :=
  if cancellation.isCancelled (.unitStart unit.id) then .ok (.error (.abstained .cancelled assessments))
  else
    match ProtectionPlan.build engine.environment.unicode unit.text options.protectedTerms with
    | .error .reservedTokenInSource => .ok (.error (.abstained .sentinelIntegrity assessments))
    | .error .ambiguousSurfaceMapping => .ok (.error (.abstained .sentinelIntegrity assessments))
    | .error fault => .error (.protection fault)
    | .ok plan =>
        if cancellation.isCancelled (.planned unit.id) then .ok (.error (.abstained .cancelled assessments))
        else
          match engine.generator.generate (generationRequest unit plan options) with
          | .error .cancelled => .ok (.error (.abstained .cancelled assessments))
          | .error fault => .error (.generation fault)
          | .ok candidates => .ok (engine.evaluateBatch unit plan options cancellation candidates assessments)

/-- What the loop over the units has collected so far. -/
structure RunState where
  edits : List AcceptedEdit
  assessments : List CandidateAssessment
  selectedCandidates : List CandidateId

namespace RunState

def record (state : RunState) (unit : RewriteUnit) (progress : UnitProgress) : RunState where
  edits := state.edits ++ (progress.replacement.map fun replacement => ⟨unit.id, replacement⟩).toList
  assessments := progress.assessments
  selectedCandidates := state.selectedCandidates ++ [progress.selected]

end RunState

def runUnits (engine : RewriteEngine) (options : RewriteOptions) (cancellation : CancellationToken) :
    List RewriteUnit → RunState → Except EngineError (Except EngineOutcome RunState)
  | [], state => .ok (.ok state)
  | unit :: units, state =>
      match engine.evaluateUnit unit options cancellation state.assessments with
      | .error fault => .error fault
      | .ok (.error outcome) => .ok (.error outcome)
      | .ok (.ok progress) => engine.runUnits options cancellation units (state.record unit progress)

/-- The outcome of a run whose units were all decided. -/
def finishRun (cancellation : CancellationToken) (state : RunState) : EngineOutcome :=
  if cancellation.isCancelled .finish then .abstained .cancelled state.assessments
  else
    { status := if state.edits = [] then .unchangedIdentical else .rewritten
      reason := none
      edits := state.edits
      assessments := state.assessments
      selectedCandidates := state.selectedCandidates }

def run (engine : RewriteEngine) (document : DocumentIr) (options : RewriteOptions) (cancellation : CancellationToken) :
    Except EngineError EngineOutcome :=
  match Policy.validateRewriteOptions options with
  | .error fault => .error fault
  | .ok () =>
      match document.validate with
      | .error fault => .error (.invalidDocument fault)
      | .ok () =>
          if options.atomicity ≠ .document then .ok (.abstained .unsupportedAtomicity [])
          else if cancellation.isCancelled .start then .ok (.abstained .cancelled [])
          else if document.rewriteUnits = [] then .ok ⟨.unchangedNoEligibleContent, none, [], [], []⟩
          else
            match engine.runUnits options cancellation document.rewriteUnits ⟨[], [], []⟩ with
            | .error fault => .error fault
            | .ok (.error outcome) => .ok outcome
            | .ok (.ok state) => .ok (finishRun cancellation state)

end RewriteEngine

end Retonr
