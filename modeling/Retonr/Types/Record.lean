import Retonr.Types.Rewrite
import Retonr.Types.Validation

/-! The redacted record of one rewrite transaction and the provenance of its generation call. -/

namespace Retonr

structure GenerationRuntimeProvenance where
  (backend version : Text)
  digest : Option Digest

structure GenerationUsageProvenance where
  (inputTokens outputTokens generationMicros : Option Nat)

structure GenerationProvenance where
  schemaVersion : Nat
  strategyId : Text
  runtime : GenerationRuntimeProvenance
  (artifactId artifactDigest promptTemplateDigest inputDigest outputSchemaDigest : Digest)
  candidateCount : Nat
  usage : GenerationUsageProvenance

def generationProvenanceSchemaVersion : Nat := 1

structure RewriteRecord where
  schemaVersion : Nat
  documentId : DocumentId
  (sourceDigest outputDigest : Digest)
  status : RewriteStatus
  reason : Option ReasonCode
  selectedCandidates : List CandidateId
  assessments : List CandidateAssessment
  generation : Option GenerationProvenance

namespace RewriteRecord

def schemaVersionCurrent : Nat := 2

def new (documentId : DocumentId) (sourceDigest outputDigest : Digest) (status : RewriteStatus) (reason : Option ReasonCode)
    (selectedCandidates : List CandidateId) (assessments : List CandidateAssessment) : RewriteRecord where
  schemaVersion := schemaVersionCurrent
  documentId
  sourceDigest
  outputDigest
  status
  reason
  selectedCandidates
  assessments
  generation := none

def withGeneration (record : RewriteRecord) (generation : GenerationProvenance) : RewriteRecord :=
  { record with generation := some generation }

end RewriteRecord

end Retonr
