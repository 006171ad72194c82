import Retonr.Types.Document

/-! Content-redacted claims reported by an independent extractor, and the bounded
set of them that is bound to one exact unit text. -/

namespace Retonr
open Text List

def claimEvidenceSchemaVersion : Nat := 1

def maxClaimsPerUnit : Nat := 256

def maxEvidenceSpansPerClaim : Nat := 16

def maxExtractorIdBytes : Nat := 64

def claimConfidencePartsPerMillion : Nat := 1000000

inductive ClaimExtractionStatus where
  | complete
  | partly
  | abstained
  | failed
  deriving DecidableEq

inductive ClaimPolarity where
  | affirmed
  | negated
  | unknown
  deriving DecidableEq

inductive ClaimModality where
  | asserted
  | required
  | permitted
  | possible
  | conditional
  | unknown
  deriving DecidableEq

inductive ClaimEvidenceError where
  | invalidExtractorIdentity
  | invalidConfidenceThreshold
  | tooManyClaims
  | duplicateClaim
  | invalidSpanCount
  | emptySpan
  | duplicateSpan
  | invalidSourceSpan
  | invalidConfidence
  | invalidComparison
  deriving DecidableEq

namespace SourceSpan

/-- The order of `(start, end)` keys. -/
def keyLe (left right : SourceSpan) : Prop := left.start < right.start ∨ left.start = right.start ∧ left.stop ≤ right.stop

instance : DecidableRel keyLe := fun _ _ => inferInstanceAs (Decidable (_ ∨ _))

def adjacentRepeat : List SourceSpan → Bool
  | first :: second :: rest => first == second || adjacentRepeat (second :: rest)
  | _ => false

end SourceSpan

structure ClaimEvidence where
  claimId : Digest
  subjectId : Option Digest
  predicateId : Digest
  objectId : Option Digest
  polarity : ClaimPolarity
  modality : ClaimModality
  conditionCount : UInt16
  attributed : Bool
  evidenceSpans : List SourceSpan
  confidencePpm : Nat
  confidenceBounded : confidencePpm ≤ claimConfidencePartsPerMillion
  spansCounted : evidenceSpans ≠ [] ∧ evidenceSpans.length ≤ maxEvidenceSpansPerClaim
  spansSolid : ∀ span ∈ evidenceSpans, span.isEmpty = false
  spansDistinct : SourceSpan.adjacentRepeat evidenceSpans = false

namespace ClaimEvidence

def fromCanonical (claimId : Digest) (subjectId : Option Digest) (predicateId : Digest) (objectId : Option Digest)
    (polarity : ClaimPolarity) (modality : ClaimModality) (conditionCount : UInt16) (attributed : Bool)
    (evidenceSpans : List SourceSpan) (confidencePpm : Nat) : Except ClaimEvidenceError ClaimEvidence :=
  if confident : claimConfidencePartsPerMillion < confidencePpm then .error .invalidConfidence
  else if counted : evidenceSpans = [] ∨ maxEvidenceSpansPerClaim < evidenceSpans.length then .error .invalidSpanCount
  else if solid : evidenceSpans.any SourceSpan.isEmpty = true then .error .emptySpan
  else
    let sorted := evidenceSpans.insertionSort SourceSpan.keyLe
    if distinct : SourceSpan.adjacentRepeat sorted = true then .error .duplicateSpan
    else
      .ok
        { claimId, subjectId, predicateId, objectId, polarity, modality, conditionCount, attributed, confidencePpm
          evidenceSpans := sorted
          confidenceBounded := Nat.le_of_not_lt confident
          spansCounted := by
            have same := perm_insertionSort SourceSpan.keyLe evidenceSpans
            rw [not_or, Nat.not_lt] at counted
            refine ⟨?_, same.length_eq ▸ counted.2⟩
            rintro (empty : evidenceSpans.insertionSort SourceSpan.keyLe = [])
            exact counted.1 (nil_perm.mp (empty ▸ same))
          spansSolid := by
            intro span member
            simpa using fun empty => solid (any_eq_true.mpr
              ⟨span, (perm_insertionSort SourceSpan.keyLe evidenceSpans).mem_iff.mp member, empty⟩)
          spansDistinct := by simpa using distinct }

end ClaimEvidence

def validComponent (value : Text) : Bool :=
  !value.isEmpty && byteLen value ≤ maxExtractorIdBytes &&
    value.all fun char => char.isAlphanum || char ∈ ['.', '-', '_', '+', ':']

/-- Big-endian bytes of a fixed-width unsigned integer. -/
def toBeBytes (width value : Nat) : Bytes :=
  (List.range width).map fun index => UInt8.ofNat (value >>> (8 * (width - 1 - index)))

def appendPart (bytes value : Bytes) : Bytes := bytes ++ toBeBytes 8 value.length ++ value

def appendDigest (bytes : Bytes) : Option Digest → Bytes
  | some value => appendPart (bytes ++ [1]) (encode value.asStr)
  | none => bytes ++ [0]

namespace ClaimExtractionStatus

def code : ClaimExtractionStatus → UInt8
  | complete => 0
  | partly => 1
  | abstained => 2
  | failed => 3

end ClaimExtractionStatus

namespace ClaimPolarity

def code : ClaimPolarity → UInt8
  | affirmed => 0
  | negated => 1
  | unknown => 2

end ClaimPolarity

namespace ClaimModality

def code : ClaimModality → UInt8
  | asserted => 0
  | required => 1
  | permitted => 2
  | possible => 3
  | conditional => 4
  | unknown => 5

end ClaimModality

def appendClaim (bytes : Bytes) (claim : ClaimEvidence) : Bytes :=
  let identified := appendDigest (appendPart (appendDigest (appendPart bytes (encode claim.claimId.asStr)) claim.subjectId)
    (encode claim.predicateId.asStr)) claim.objectId
  identified ++ [claim.polarity.code, claim.modality.code] ++ toBeBytes 2 claim.conditionCount.toNat ++
    [if claim.attributed then 1 else 0] ++ toBeBytes 4 claim.confidencePpm ++ toBeBytes 8 claim.evidenceSpans.length ++
    claim.evidenceSpans.flatMap fun span => toBeBytes 8 span.start ++ toBeBytes 8 span.stop

/-- The bytes that `evidenceDigest` hashes. -/
def evidencePreimage (manifest : Digest) (status : ClaimExtractionStatus) (confidencePpm : Nat) (unitId : RewriteUnitId)
    (textDigest : Digest) (textBytes : Nat) (claims : List ClaimEvidence) : Bytes :=
  let header := appendPart (toBeBytes 4 claimEvidenceSchemaVersion) (encode manifest.asStr) ++ [status.code] ++
    toBeBytes 4 confidencePpm
  let bound := appendPart (appendPart header (encode unitId.asStr)) (encode textDigest.asStr) ++ toBeBytes 8 textBytes ++
    toBeBytes 8 claims.length
  claims.foldl appendClaim bound

def evidenceDigest (manifest : Digest) (status : ClaimExtractionStatus) (confidencePpm : Nat) (unitId : RewriteUnitId)
    (textDigest : Digest) (textBytes : Nat) (claims : List ClaimEvidence) : Digest :=
  Digest.sha256 (evidencePreimage manifest status confidencePpm unitId textDigest textBytes claims)

/-- Claims in strictly increasing identity order, at most `maxClaimsPerUnit` of them. -/
structure ClaimEvidenceSet where
  schemaVersion : Nat
  (extractorId extractorVersion : Text)
  extractorManifestDigest : Digest
  extractionStatus : ClaimExtractionStatus
  minimumConfidencePpm : Nat
  unitId : RewriteUnitId
  textDigest : Digest
  textBytes : Nat
  evidenceDigest : Digest
  claims : List ClaimEvidence
  thresholdBounded : minimumConfidencePpm ≤ claimConfidencePartsPerMillion
  claimsBounded : claims.length ≤ maxClaimsPerUnit
  claimsOrdered : claims.Pairwise fun left right => left.claimId.asStr < right.claimId.asStr

namespace ClaimEvidenceSet

def idLe (left right : ClaimEvidence) : Prop := left.claimId.asStr ≤ right.claimId.asStr

instance : DecidableRel idLe := fun left right => inferInstanceAs (Decidable (left.claimId.asStr ≤ right.claimId.asStr))

instance : Std.Total idLe := ⟨fun left right => le_total left.claimId.asStr right.claimId.asStr⟩

instance : IsTrans ClaimEvidence idLe := ⟨fun _ _ _ first second => le_trans first second⟩

/-- The validation loop over the sorted claims, with the identities seen so far. -/
def checkClaims (text : Text) : List Digest → List ClaimEvidence → Except ClaimEvidenceError Unit
  | _, [] => .ok ()
  | identities, claim :: claims =>
      if claim.claimId ∈ identities then .error .duplicateClaim
      else if claim.evidenceSpans.any fun span =>
          byteLen text < span.stop || !isCharBoundary text span.start || !isCharBoundary text span.stop then
        .error .invalidSourceSpan
      else checkClaims text (claim.claimId :: identities) claims

theorem checkClaims_distinct {text : Text} {identities : List Digest} {claims : List ClaimEvidence}
    (checked : checkClaims text identities claims = .ok ()) :
    (∀ claim ∈ claims, claim.claimId ∉ identities) ∧ claims.Pairwise fun left right => left.claimId ≠ right.claimId := by
  induction claims generalizing identities with
  | nil => simp
  | cons claim claims ih =>
    simp only [checkClaims] at checked
    split at checked
    · cases checked
    next fresh =>
      split at checked
      · cases checked
      · obtain ⟨unseen, distinct⟩ := ih checked
        simp only [mem_cons, not_or] at unseen
        refine ⟨?_, pairwise_cons.mpr ⟨fun later member => Ne.symm (unseen later member).1, distinct⟩⟩
        intro other member
        rcases mem_cons.mp member with rfl | member
        · exact fresh
        · exact (unseen other member).2

theorem sorted_strictly {text : Text} {claims : List ClaimEvidence} (checked : checkClaims text [] (claims.insertionSort idLe) = .ok ()) :
    (claims.insertionSort idLe).Pairwise fun left right => left.claimId.asStr < right.claimId.asStr := by
  have ordered := pairwise_insertionSort idLe claims
  refine (ordered.and (checkClaims_distinct checked).2).imp ?_
  intro left right below
  exact lt_of_le_of_ne below.1 fun same => below.2 (Digest.ext same)

def new (extractorId extractorVersion : Text) (extractorManifestDigest : Digest)
    (extractionStatus : ClaimExtractionStatus) (minimumConfidencePpm : Nat) (unitId : RewriteUnitId) (text : Text)
    (claims : List ClaimEvidence) : Except ClaimEvidenceError ClaimEvidenceSet :=
  if ¬(validComponent extractorId = true ∧ validComponent extractorVersion = true) then .error .invalidExtractorIdentity
  else if threshold : claimConfidencePartsPerMillion < minimumConfidencePpm then .error .invalidConfidenceThreshold
  else if bounded : maxClaimsPerUnit < claims.length then .error .tooManyClaims
  else
    let sorted := claims.insertionSort idLe
    match checked : checkClaims text [] sorted with
    | .error fault => .error fault
    | .ok () =>
        let textDigest := Digest.sha256 (encode text)
        .ok
          { schemaVersion := claimEvidenceSchemaVersion
            extractorId, extractorVersion, extractorManifestDigest, extractionStatus, minimumConfidencePpm, unitId, textDigest
            textBytes := byteLen text
            evidenceDigest := Retonr.evidenceDigest extractorManifestDigest extractionStatus minimumConfidencePpm unitId
              textDigest (byteLen text) sorted
            claims := sorted
            thresholdBounded := Nat.le_of_not_lt threshold
            claimsBounded := (perm_insertionSort idLe claims).length_eq ▸ Nat.le_of_not_lt bounded
            claimsOrdered := sorted_strictly checked }

end ClaimEvidenceSet

end Retonr
