import Retonr.Lib.Binary32
import Retonr.Types.ClaimComparison
import Retonr.Types.TextSafety

/-! Gate evidence and its contract: what an evaluator may return, what a gate may
retain, and when a candidate's recorded eligibility agrees with its gates. -/

namespace Retonr
open Text

def maxSemanticEvidenceItems : Nat := 32

def maxGatesPerCandidate : Nat := 64

def maxGateEvidenceCodeBytes : Nat := 64

def maxGateEvidenceMessageBytes : Nat := 256

def maxSpanFailures : Nat := 32

inductive GateStatus where
  | pass
  | fail
  | uncertain
  | notApplicable
  deriving DecidableEq

inductive Severity where
  | info
  | warning
  | error
  deriving DecidableEq

inductive EvidenceContractError where
  | invalidCode
  | invalidVersion
  | invalidMessage
  | invalidConfidence
  | tooManyFindings
  | tooManyGates
  | invalidCandidateScope
  | inconsistentEligibility
  | invalidClaimComparison (fault : ClaimEvidenceError)
  | invalidInvariantSummary
  | invalidSpanFailure
  | inconsistentSemanticFinding
  deriving DecidableEq

structure InvariantEvidenceSummary where
  (declaredTerms urls emails numbers total : Nat)

namespace InvariantEvidenceSummary

def validate (summary : InvariantEvidenceSummary) : Except EvidenceContractError InvariantEvidenceSummary :=
  let observed := summary.declaredTerms + summary.urls + summary.emails + summary.numbers
  if u32Limit ≤ observed ∨ observed ≠ summary.total then .error .invalidInvariantSummary else .ok summary

end InvariantEvidenceSummary

inductive SpanChange where
  | altered
  | missing
  | added
  | moved
  | introduced

structure TextPoint where
  (line column : Nat)
  deriving DecidableEq

namespace TextPoint

/-- One-based line and byte column; a position inside a character has none. -/
def fromByteIndex (text : Text) (byteIndex : Nat) : Option TextPoint :=
  if isCharBoundary text byteIndex then
    let leading := takeBytes byteIndex text
    let lines := leading.count '\n'
    let column := byteLen (leading.reverse.takeWhile (· != '\n'))
    if lines + 1 < u32Limit ∧ column + 1 < u32Limit then some ⟨lines + 1, column + 1⟩ else none
  else none

end TextPoint

structure SpanFailure where
  kind : Text
  ordinal : Option Nat
  (source candidate : Option TextPoint)
  change : SpanChange

inductive GateEvidenceDetails where
  | invariantSummary (summary : InvariantEvidenceSummary)
  | claimComparison (comparison : ClaimComparisonEvidence)
  | spanFailures (failures : List SpanFailure)

def isSpanKind (kind : Text) : Bool :=
  kind ∈ ["number".toList, "url".toList, "email".toList, "declared_term".toList, "unsafe_text".toList, "structure".toList,
    "word_changed".toList]

def validatePoint (point : Option TextPoint) : Except EvidenceContractError Unit :=
  if point.any fun point => point.line == 0 || point.column == 0 then .error .invalidSpanFailure else .ok ()

def validateSpanFailure (failure : SpanFailure) : Except EvidenceContractError Unit :=
  if isSpanKind failure.kind = false then .error .invalidSpanFailure
  else if failure.ordinal.any fun ordinal => !(failure.kind == "declared_term".toList && decide (0 < ordinal)) then
    .error .invalidSpanFailure
  else if failure.source.isNone && failure.candidate.isNone then .error .invalidSpanFailure
  else do
    validatePoint failure.source
    validatePoint failure.candidate

def validateSpanFailures (failures : List SpanFailure) : Except EvidenceContractError Unit :=
  if failures.isEmpty || maxSpanFailures < failures.length then .error .invalidSpanFailure
  else failures.forM validateSpanFailure

def validateGateDetails : Option GateEvidenceDetails → Except EvidenceContractError Unit
  | some (.invariantSummary summary) => summary.validate.map fun _ => ()
  | some (.claimComparison comparison) => comparison.validate.mapError .invalidClaimComparison
  | some (.spanFailures failures) => validateSpanFailures failures
  | none => .ok ()

def validateCode (code : Text) : Except EvidenceContractError Unit :=
  if code.isEmpty || maxGateEvidenceCodeBytes < byteLen code ||
      !code.all fun char => char.isLower || char.isDigit || char == '_' then .error .invalidCode
  else .ok ()

def validateVersion (version : Text) : Except EvidenceContractError Unit :=
  if version.isEmpty || maxGateEvidenceCodeBytes < byteLen version ||
      !version.all fun char => char.isAlphanum || char ∈ ['.', '-', '_', '+'] then .error .invalidVersion
  else .ok ()

def validateConfidence (confidence : Option Binary32) : Except EvidenceContractError Unit :=
  if confidence.any fun value => !value.isFinite || !Binary32.within .zero .one value then .error .invalidConfidence
  else .ok ()

structure GateEvidence where
  (code message : Text)
  details : Option GateEvidenceDetails

namespace GateEvidence

def validate (evidence : GateEvidence) : Except EvidenceContractError Unit := do
  validateCode evidence.code
  if evidence.message.isEmpty || maxGateEvidenceMessageBytes < byteLen evidence.message ||
      evidence.message.any TextSafety.isControl then .error .invalidMessage
  else validateGateDetails evidence.details

def new (code message : Text) (details : Option GateEvidenceDetails) : Except EvidenceContractError GateEvidence :=
  let evidence : GateEvidence := { code, message, details }
  evidence.validate.map fun _ => evidence

end GateEvidence

structure GateResult where
  (gateId gateVersion : Text)
  status : GateStatus
  severity : Severity
  evidence : List GateEvidence
  confidence : Option Binary32

namespace GateResult

def pass (gateId : Text) : GateResult :=
  { gateId, gateVersion := ['1'], status := .pass, severity := .error, evidence := [], confidence := none }

def fail (gateId code message : Text) : GateResult :=
  { gateId
    gateVersion := ['1']
    status := .fail
    severity := .error
    evidence := [{ code, message, details := none }]
    confidence := none }

def validate (gate : GateResult) : Except EvidenceContractError Unit := do
  validateCode gate.gateId
  validateVersion gate.gateVersion
  validateConfidence gate.confidence
  if maxSemanticEvidenceItems < gate.evidence.length then .error .tooManyFindings
  else gate.evidence.forM GateEvidence.validate

end GateResult

structure CandidateAssessment where
  candidateId : CandidateId
  unitId : RewriteUnitId
  eligible : Bool
  gates : List GateResult

namespace CandidateAssessment

/-- Some gate was retained and no error-severity gate failed or stayed uncertain. -/
def hardGatesPass (gates : List GateResult) : Bool :=
  !gates.isEmpty && gates.all fun gate => gate.severity != .error || gate.status == .pass || gate.status == .notApplicable

def validate (assessment : CandidateAssessment) : Except EvidenceContractError Unit :=
  if assessment.candidateId.isScopedTo assessment.unitId = false then .error .invalidCandidateScope
  else if maxGatesPerCandidate < assessment.gates.length then .error .tooManyGates
  else do
    assessment.gates.forM GateResult.validate
    if assessment.eligible ≠ hardGatesPass assessment.gates then .error .inconsistentEligibility else .ok ()

end CandidateAssessment

inductive SemanticEvidenceCode where
  | literalTokensEqual
  | literalTokensChanged
  | unsupportedMode
  | claimComparisonPreserved
  | claimComparisonConflict
  | claimComparisonUncertain
  deriving DecidableEq

namespace SemanticEvidenceCode

def asStr : SemanticEvidenceCode → Text
  | literalTokensEqual => "literal_tokens_equal".toList
  | literalTokensChanged => "literal_tokens_changed".toList
  | unsupportedMode => "unsupported_mode".toList
  | claimComparisonPreserved => "claim_comparison_preserved".toList
  | claimComparisonConflict => "claim_comparison_conflict".toList
  | claimComparisonUncertain => "claim_comparison_uncertain".toList

end SemanticEvidenceCode

inductive SemanticEvidenceDetails where
  | claimComparison (comparison : ClaimComparisonEvidence)

structure SemanticEvidence where
  code : SemanticEvidenceCode
  details : Option SemanticEvidenceDetails

namespace SemanticEvidence

/-- A comparison detail that passes its own contract and the condition its code requires. -/
def validateComparison (comparison : ClaimComparisonEvidence) (consistent : Bool) : Except EvidenceContractError Unit := do
  comparison.validate.mapError .invalidClaimComparison
  if consistent then .ok () else .error .inconsistentSemanticFinding

def validate (evidence : SemanticEvidence) : Except EvidenceContractError Unit :=
  match evidence.code, evidence.details with
  | .literalTokensEqual, none => .ok ()
  | .literalTokensChanged, none => .ok ()
  | .unsupportedMode, none => .ok ()
  | .claimComparisonUncertain, none => .ok ()
  | .claimComparisonPreserved, some (.claimComparison comparison) =>
      validateComparison comparison (!comparison.counts.hasUncertainty && !comparison.counts.hasDifference)
  | .claimComparisonConflict, some (.claimComparison comparison) =>
      validateComparison comparison comparison.counts.hasDifference
  | .claimComparisonUncertain, some (.claimComparison comparison) =>
      validateComparison comparison comparison.counts.hasUncertainty
  | _, _ => .error .inconsistentSemanticFinding

end SemanticEvidence

structure SemanticAssessment where
  status : GateStatus
  confidence : Option Binary32
  evidence : List SemanticEvidence

namespace SemanticAssessment

def validate (assessment : SemanticAssessment) : Except EvidenceContractError Unit := do
  validateConfidence assessment.confidence
  if maxSemanticEvidenceItems < assessment.evidence.length then .error .tooManyFindings
  else do
    assessment.evidence.forM SemanticEvidence.validate
    if assessment.status = .pass ∧ (assessment.evidence = [] ∨
        ∃ finding ∈ assessment.evidence, finding.code ≠ .literalTokensEqual ∧ finding.code ≠ .claimComparisonPreserved) then
      .error .inconsistentSemanticFinding
    else .ok ()

end SemanticAssessment

end Retonr
