import Retonr.Types.ClaimComparison

/-! Deterministic comparison of two claim-evidence sets. Claims are aligned by exact
subject, predicate, and object identity, and an ambiguous alignment is refused. -/

namespace Retonr

inductive ClaimComparisonError where
  | extractorMismatch
  | unitMismatch
  | incompleteExtraction
  | insufficientEvidence
  | ambiguousAlignment
  | countOverflow
  | invalidAggregate
  deriving DecidableEq

namespace ClaimEvidenceComparator

def count (value : Nat) : Except ClaimComparisonError Nat := if value < u32Limit then .ok value else .error .countOverflow

def increment (value : Nat) : Except ClaimComparisonError Nat :=
  if value + 1 < u32Limit then .ok (value + 1) else .error .countOverflow

def incrementIf (condition : Bool) (value : Nat) : Except ClaimComparisonError Nat :=
  if condition then increment value else .ok value

def sameRelation (source candidate : ClaimEvidence) : Bool :=
  source.subjectId == candidate.subjectId && source.predicateId == candidate.predicateId &&
    source.objectId == candidate.objectId

def validateCompatibleSets (source candidate : ClaimEvidenceSet) : Except ClaimComparisonError Unit :=
  if source.extractorId ≠ candidate.extractorId ∨ source.extractorVersion ≠ candidate.extractorVersion ∨
      source.extractorManifestDigest ≠ candidate.extractorManifestDigest ∨
      source.schemaVersion ≠ candidate.schemaVersion ∨
      source.minimumConfidencePpm ≠ candidate.minimumConfidencePpm then .error .extractorMismatch
  else if source.unitId ≠ candidate.unitId then .error .unitMismatch
  else if source.extractionStatus ≠ .complete ∨ candidate.extractionStatus ≠ .complete then .error .incompleteExtraction
  else if 0 < source.textBytes ∧ source.claims = [] then .error .insufficientEvidence
  else .ok ()

def countUncertainty (claim : ClaimEvidence) (thresholdPpm : Nat) (source : Bool) (counts : ClaimComparisonCounts) :
    Except ClaimComparisonError ClaimComparisonCounts :=
  let below : Bool := claim.confidencePpm < thresholdPpm
  if source then do
    let unknownPolarity ← incrementIf (claim.polarity == .unknown) counts.sourceUnknownPolarity
    let unknownModality ← incrementIf (claim.modality == .unknown) counts.sourceUnknownModality
    let belowConfidence ← incrementIf below counts.sourceBelowConfidence
    return { counts with sourceUnknownPolarity := unknownPolarity, sourceUnknownModality := unknownModality,
                         sourceBelowConfidence := belowConfidence }
  else do
    let unknownPolarity ← incrementIf (claim.polarity == .unknown) counts.candidateUnknownPolarity
    let unknownModality ← incrementIf (claim.modality == .unknown) counts.candidateUnknownModality
    let belowConfidence ← incrementIf below counts.candidateBelowConfidence
    return { counts with candidateUnknownPolarity := unknownPolarity, candidateUnknownModality := unknownModality,
                         candidateBelowConfidence := belowConfidence }

def baseCounts (source candidate : ClaimEvidenceSet) : Except ClaimComparisonError ClaimComparisonCounts := do
  let sourceClaims ← count source.claims.length
  let candidateClaims ← count candidate.claims.length
  let empty : ClaimComparisonCounts := ⟨sourceClaims, candidateClaims, 0, 0, 0, 0, 0, 0, 0, 0, 0, 0, 0, 0⟩
  let counted ← source.claims.foldlM
    (fun counts claim => countUncertainty claim source.minimumConfidencePpm true counts) empty
  candidate.claims.foldlM (fun counts claim => countUncertainty claim candidate.minimumConfidencePpm false counts) counted

def polarityChanged (source candidate : ClaimEvidence) : Bool :=
  (source.polarity != .unknown && candidate.polarity != .unknown) && source.polarity != candidate.polarity

def modalityChanged (source candidate : ClaimEvidence) : Bool :=
  (source.modality != .unknown && candidate.modality != .unknown) && source.modality != candidate.modality

def relationshipChanged (source candidate : ClaimEvidence) : Bool :=
  source.conditionCount != candidate.conditionCount || source.attributed != candidate.attributed ||
    (source.claimId != candidate.claimId && !polarityChanged source candidate && !modalityChanged source candidate)

def compareAligned (source candidate : ClaimEvidence) (counts : ClaimComparisonCounts) :
    Except ClaimComparisonError ClaimComparisonCounts := do
  let polarity ← incrementIf (polarityChanged source candidate) counts.polarityConflicts
  let modality ← incrementIf (modalityChanged source candidate) counts.modalityConflicts
  let relationship ← incrementIf (relationshipChanged source candidate) counts.relationshipConflicts
  return { counts with polarityConflicts := polarity, modalityConflicts := modality, relationshipConflicts := relationship }

/-- The alignment loop over the source claims, with the used flags of the candidate. -/
def alignClaims (candidates : List ClaimEvidence) :
    List ClaimEvidence → List Bool → ClaimComparisonCounts → Except ClaimComparisonError (List Bool × ClaimComparisonCounts)
  | [], used, counts => .ok (used, counts)
  | sourceClaim :: rest, used, counts =>
      match candidates.zipIdx.filter fun entry => sameRelation sourceClaim entry.1 with
      | [] => do
          let missing ← increment counts.missingClaims
          alignClaims candidates rest used { counts with missingClaims := missing }
      | (candidateClaim, candidateIndex) :: others =>
          if !others.isEmpty || used.getD candidateIndex false then .error .ambiguousAlignment
          else do
            let aligned ← increment counts.alignedClaims
            let compared ← compareAligned sourceClaim candidateClaim { counts with alignedClaims := aligned }
            alignClaims candidates rest (used.set candidateIndex true) compared

def countNovel (used : List Bool) : Except ClaimComparisonError Nat :=
  used.foldlM (fun novel flag => incrementIf (!flag) novel) 0

def compare (source candidate : ClaimEvidenceSet) : Except ClaimComparisonError ClaimComparisonEvidence := do
  validateCompatibleSets source candidate
  let base ← baseCounts source candidate
  let (used, counts) ← alignClaims candidate.claims source.claims (List.replicate candidate.claims.length false) base
  let novel ← countNovel used
  match ClaimComparisonEvidence.new source.extractorManifestDigest source.unitId source.textDigest source.textBytes
      candidate.textDigest candidate.textBytes source.evidenceDigest candidate.evidenceDigest
      source.minimumConfidencePpm { counts with novelClaims := novel } with
  | .ok evidence => .ok evidence
  | .error _ => .error .invalidAggregate

end ClaimEvidenceComparator

end Retonr
