import Retonr.Types.Claim

/-! The redacted aggregate of one claim comparison, bound to the two evidence sets. -/

namespace Retonr

def claimComparisonSchemaVersion : Nat := 1

def claimComparatorVersion : Nat := 1

def u32Limit : Nat := 2 ^ 32

structure ClaimComparisonCounts where
  (sourceClaims candidateClaims alignedClaims missingClaims novelClaims polarityConflicts modalityConflicts relationshipConflicts : Nat)
  (sourceUnknownPolarity candidateUnknownPolarity sourceUnknownModality candidateUnknownModality sourceBelowConfidence : Nat)
  candidateBelowConfidence : Nat

namespace ClaimComparisonCounts

def validate (counts : ClaimComparisonCounts) : Except ClaimEvidenceError ClaimComparisonCounts :=
  let maximum := maxClaimsPerUnit
  let sourceAccounted := counts.alignedClaims + counts.missingClaims
  let candidateAccounted := counts.alignedClaims + counts.novelClaims
  let sourceSubsets := [counts.sourceUnknownPolarity, counts.sourceUnknownModality, counts.sourceBelowConfidence]
  let candidateSubsets := [counts.candidateUnknownPolarity, counts.candidateUnknownModality, counts.candidateBelowConfidence]
  if u32Limit ≤ sourceAccounted ∨ u32Limit ≤ candidateAccounted then .error .invalidComparison
  else if maximum < counts.sourceClaims ∨ maximum < counts.candidateClaims ∨
      sourceAccounted ≠ counts.sourceClaims ∨ candidateAccounted ≠ counts.candidateClaims ∨
      counts.alignedClaims < counts.polarityConflicts ∨ counts.alignedClaims < counts.modalityConflicts ∨
      counts.alignedClaims < counts.relationshipConflicts ∨
      (∃ count ∈ sourceSubsets, counts.sourceClaims < count) ∨
      (∃ count ∈ candidateSubsets, counts.candidateClaims < count) then .error .invalidComparison
  else .ok counts

def hasUncertainty (counts : ClaimComparisonCounts) : Bool :=
  0 < counts.sourceUnknownPolarity || 0 < counts.candidateUnknownPolarity || 0 < counts.sourceUnknownModality ||
    0 < counts.candidateUnknownModality || 0 < counts.sourceBelowConfidence || 0 < counts.candidateBelowConfidence

def hasDifference (counts : ClaimComparisonCounts) : Bool :=
  0 < counts.missingClaims || 0 < counts.novelClaims || 0 < counts.polarityConflicts ||
    0 < counts.modalityConflicts || 0 < counts.relationshipConflicts

end ClaimComparisonCounts

structure ClaimComparisonEvidence where
  (schemaVersion claimSchemaVersion comparatorVersion : Nat)
  extractorManifestDigest : Digest
  unitId : RewriteUnitId
  sourceTextDigest : Digest
  sourceTextBytes : Nat
  candidateTextDigest : Digest
  candidateTextBytes : Nat
  (sourceEvidenceDigest candidateEvidenceDigest : Digest)
  minimumConfidencePpm : Nat
  counts : ClaimComparisonCounts

namespace ClaimComparisonEvidence

def validate (evidence : ClaimComparisonEvidence) : Except ClaimEvidenceError Unit :=
  if evidence.schemaVersion ≠ claimComparisonSchemaVersion ∨ evidence.claimSchemaVersion ≠ claimEvidenceSchemaVersion ∨
      evidence.comparatorVersion ≠ claimComparatorVersion ∨
      claimConfidencePartsPerMillion < evidence.minimumConfidencePpm ∨
      (0 < evidence.sourceTextBytes ∧ evidence.counts.sourceClaims = 0) then .error .invalidComparison
  else evidence.counts.validate.map fun _ => ()

def new (extractorManifestDigest : Digest) (unitId : RewriteUnitId) (sourceTextDigest : Digest) (sourceTextBytes : Nat)
    (candidateTextDigest : Digest) (candidateTextBytes : Nat) (sourceEvidenceDigest candidateEvidenceDigest : Digest)
    (minimumConfidencePpm : Nat) (counts : ClaimComparisonCounts) : Except ClaimEvidenceError ClaimComparisonEvidence :=
  let evidence : ClaimComparisonEvidence :=
    { schemaVersion := claimComparisonSchemaVersion
      claimSchemaVersion := claimEvidenceSchemaVersion
      comparatorVersion := claimComparatorVersion
      extractorManifestDigest, unitId, sourceTextDigest, sourceTextBytes, candidateTextDigest, candidateTextBytes
      sourceEvidenceDigest, candidateEvidenceDigest, minimumConfidencePpm, counts }
  evidence.validate.map fun _ => evidence

end ClaimComparisonEvidence

end Retonr
