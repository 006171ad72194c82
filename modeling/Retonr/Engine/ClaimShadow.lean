import Retonr.Types.Validation

/-! The claim-shadow observer and the informational gate its evidence becomes. -/

namespace Retonr
open Text

/-- The port an observer implements. It may return any evidence, or none. -/
structure ClaimShadowObserver where
  observe : RewriteUnitId → Text → Text → Option ClaimComparisonEvidence

namespace ClaimShadow

def claimShadowGate : Text := "claim_comparison_shadow".toList

def shadowGateVersion : Text := "claim-comparator-v".toList ++ decimal claimComparatorVersion

def mismatchedShadowGate : GateResult where
  gateId := claimShadowGate
  gateVersion := shadowGateVersion
  status := .uncertain
  severity := .info
  evidence :=
    [{ code := "invalid_shadow_claim_evidence".toList
       message := "shadow claim comparison was malformed or bound to other text".toList
       details := none }]
  confidence := none

def comparisonMatches (comparison : ClaimComparisonEvidence) (unitId : RewriteUnitId) (source candidate : Text) : Bool :=
  comparison.unitId == unitId && comparison.sourceTextDigest == Digest.sha256 (encode source) &&
    comparison.candidateTextDigest == Digest.sha256 (encode candidate) &&
    comparison.sourceTextBytes == byteLen source && comparison.candidateTextBytes == byteLen candidate

def verdict (counts : ClaimComparisonCounts) : GateStatus × SemanticEvidenceCode × Text :=
  if counts.hasDifference then (.fail, .claimComparisonConflict, "typed claim comparison found a conflict".toList)
  else if counts.hasUncertainty then
    (.uncertain, .claimComparisonUncertain, "typed claim comparison retained uncertainty".toList)
  else (.pass, .claimComparisonPreserved, "typed claim comparison found no conflict".toList)

def gateFromComparison (comparison : ClaimComparisonEvidence) (unitId : RewriteUnitId) (source candidate : Text) : GateResult :=
  if comparisonMatches comparison unitId source candidate = false ∨ comparison.validate ≠ .ok () then mismatchedShadowGate
  else
    let (status, code, message) := verdict comparison.counts
    let gate : GateResult :=
      { gateId := claimShadowGate
        gateVersion := shadowGateVersion
        status
        severity := .info
        evidence := [{ code := code.asStr, message, details := some (.claimComparison comparison) }]
        confidence := none }
    if gate.validate = .ok () then gate else mismatchedShadowGate

def shadowGate (observer : ClaimShadowObserver) (unitId : RewriteUnitId) (source candidate : Text) : Option GateResult :=
  (observer.observe unitId source candidate).map fun comparison => gateFromComparison comparison unitId source candidate

end ClaimShadow

end Retonr
