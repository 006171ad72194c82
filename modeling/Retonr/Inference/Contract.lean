import Retonr.Lib.Binary32
import Retonr.Types.Document

/-! The bounded inference contracts and the backend port. What a backend answers is untrusted. -/

namespace Retonr
open Text

structure ArtifactId where
  digest : Digest
  deriving DecidableEq

inductive ArtifactRole where
  | generation
  | embedding
  | speechRecognition
  | voiceActivityDetection
  | speechSynthesis
  | voice
  | claimExtraction
  deriving DecidableEq

namespace ArtifactRole

/-- The position in the stable domain order. -/
def ordinal : ArtifactRole → Nat
  | generation => 0
  | embedding => 1
  | speechRecognition => 2
  | voiceActivityDetection => 3
  | speechSynthesis => 4
  | voice => 5
  | claimExtraction => 6

def all : List ArtifactRole :=
  [generation, embedding, speechRecognition, voiceActivityDetection, speechSynthesis, voice, claimExtraction]

end ArtifactRole

structure RuntimeIdentity where
  (backend version : Text)
  digest : Option Digest
  deriving DecidableEq

inductive ContractError where
  | invalidCapabilities
  | unsupportedSchema
  | artifactMismatch
  | invalidLimits
  | invalidCandidateCount
  | invalidSampling
  | invalidOutputContract
  deriving DecidableEq

inductive InferenceErrorKind where
  | cancelled
  | deadline
  | retryable
  | compatibility
  | policy
  | malformedResponse
  | permanent
  deriving DecidableEq

structure InferenceError where
  kind : InferenceErrorKind
  code : Text
  deriving DecidableEq

structure OutputContract where
  schemaDigest : Digest
  schemaJson : Text

def maxOutputSchemaBytes : Nat := 64 * 1024

namespace OutputContract

/-- The digest and the size of the schema bytes agree; `isObject` is the strict JSON parser's verdict. -/
def validate (isObject : Text → Bool) (output : OutputContract) : Except ContractError Unit :=
  if output.schemaJson.isEmpty ∨ maxOutputSchemaBytes < byteLen output.schemaJson ∨
      Digest.sha256 (encode output.schemaJson) ≠ output.schemaDigest then .error .invalidOutputContract
  else if isObject output.schemaJson = false then .error .invalidOutputContract
  else .ok ()

end OutputContract

/-- Every neighbouring pair of the list is related. -/
def pairwiseAdjacent {α : Type} (related : α → α → Bool) : List α → Bool
  | first :: second :: rest => related first second && pairwiseAdjacent related (second :: rest)
  | _ => true

def maxDiscoveredOutputContracts : Nat := 64

structure InferenceCapabilities where
  roles : List ArtifactRole
  admittedOutputContractDigests : List Digest
  (seed disableReasoning : Bool)

namespace InferenceCapabilities

def validate (capabilities : InferenceCapabilities) : Except ContractError Unit :=
  if ArtifactRole.all.length < capabilities.roles.length ∨
      maxDiscoveredOutputContracts < capabilities.admittedOutputContractDigests.length ∨
      pairwiseAdjacent (fun left right => left.ordinal < right.ordinal) capabilities.roles = false ∨
      pairwiseAdjacent (fun left right => left.asStr < right.asStr) capabilities.admittedOutputContractDigests = false then
    .error .invalidCapabilities
  else .ok ()

def admitsOutput (capabilities : InferenceCapabilities) (output : OutputContract) : Bool :=
  decide (capabilities.validate = .ok ()) && capabilities.admittedOutputContractDigests.contains output.schemaDigest

end InferenceCapabilities

structure InventoryEntry where
  artifactId : ArtifactId
  artifactDigest : Digest

structure BackendDiscovery where
  runtime : RuntimeIdentity
  capabilities : InferenceCapabilities
  inventory : List InventoryEntry

namespace BackendDiscovery

def inventories (discovery : BackendDiscovery) (artifactId : ArtifactId) (artifactDigest : Digest) : Bool :=
  discovery.inventory.any fun entry => entry.artifactId == artifactId && entry.artifactDigest == artifactDigest

end BackendDiscovery

inductive ReasoningPolicy where
  | disabled
  | discard

structure SamplingParameters where
  (temperature topP : Binary32)
  seed : Option Nat

namespace SamplingParameters

/-- Both values are finite, the temperature is between zero and two and the probability between zero and one. -/
def inRange (sampling : SamplingParameters) : Bool :=
  sampling.temperature.isFinite && Binary32.within .zero .two sampling.temperature && sampling.topP.isFinite &&
    Binary32.within .zero .one sampling.topP

end SamplingParameters

structure InferenceRequest where
  schemaVersion : Nat
  artifactId : ArtifactId
  artifactDigest : Digest
  input : Text
  output : OutputContract
  (candidateCount sourceByteCount sourceByteLimit inputByteLimit contextTokenLimit outputTokenLimit candidateByteLimit : Nat)
  sampling : SamplingParameters
  reasoning : ReasoningPolicy

def generationRequestSchemaVersion : Nat := 1

def maxInferenceCandidates : Nat := 16

namespace InferenceRequest

def validate (isObject : Text → Bool) (request : InferenceRequest) : Except ContractError Unit :=
  if request.schemaVersion ≠ generationRequestSchemaVersion then .error .unsupportedSchema
  else if request.artifactId.digest ≠ request.artifactDigest then .error .artifactMismatch
  else if request.sourceByteLimit < request.sourceByteCount ∨ request.sourceByteLimit = 0 ∨ request.inputByteLimit = 0 ∨
      request.contextTokenLimit = 0 ∨ request.outputTokenLimit = 0 ∨ request.candidateByteLimit = 0 ∨
      request.inputByteLimit < byteLen request.input then .error .invalidLimits
  else if request.candidateCount = 0 ∨ maxInferenceCandidates < request.candidateCount then .error .invalidCandidateCount
  else if request.sampling.inRange = false then .error .invalidSampling
  else request.output.validate isObject

end InferenceRequest

structure GenerationCandidate where
  ordinal : Nat
  text : Text

structure UsageObservation where
  (inputTokens outputTokens generationMicros : Option Nat)

structure GenerationResponse where
  runtime : RuntimeIdentity
  artifactId : ArtifactId
  artifactDigest : Digest
  candidates : List GenerationCandidate
  usage : UsageObservation

def structuredCompletionRequestSchemaVersion : Nat := 1

structure StructuredCompletionRequest where
  schemaVersion : Nat
  artifactId : ArtifactId
  artifactDigest : Digest
  input : Text
  output : OutputContract
  (sourceByteCount sourceByteLimit inputByteLimit contextTokenLimit outputTokenLimit outputByteLimit : Nat)
  sampling : SamplingParameters
  reasoning : ReasoningPolicy

structure StructuredCompletionResponse where
  artifactId : ArtifactId
  artifactDigest : Digest
  outputJson : Text

/-- The answers of a backend to the calls of one rewrite. A discovery or a completion is
identified by the number of the place that makes it, so its answer may differ from call to call. -/
structure InferenceBackend where
  discover : Nat → Except InferenceError BackendDiscovery
  generate : InferenceRequest → Except InferenceError GenerationResponse
  completeStructured : Nat → StructuredCompletionRequest → Except InferenceError StructuredCompletionResponse

def claimSchema : Text :=
  ("\x7b\"$schema\":\"https://json-schema.org/draft/2020-12/schema\",\"type\":\"object\"," ++
    "\"additionalProperties\":false,\"required\":[\"status\",\"unit_id\",\"text_digest\",\"claims\"]," ++
    "\"properties\":\x7b\"status\":\x7b\"type\":\"string\",\"enum\":[\"complete\",\"partial\",\"abstained\"," ++
    "\"failed\"]\x7d,\"unit_id\":\x7b\"type\":\"string\",\"minLength\":1,\"maxLength\":128\x7d," ++
    "\"text_digest\":\x7b\"type\":\"string\",\"pattern\":\"^[0-9a-f]\x7b64\x7d$\"\x7d," ++
    "\"claims\":\x7b\"type\":\"array\",\"maxItems\":256,\"items\":\x7b\"type\":\"object\"," ++
    "\"additionalProperties\":false,\"required\":[\"claim_id\",\"predicate_id\",\"polarity\",\"modality\"," ++
    "\"condition_count\",\"attributed\",\"evidence_spans\",\"confidence_ppm\"]," ++
    "\"properties\":\x7b\"claim_id\":\x7b\"type\":\"string\",\"pattern\":\"^[0-9a-f]\x7b64\x7d$\"\x7d," ++
    "\"subject_id\":\x7b\"type\":[\"string\",\"null\"],\"pattern\":\"^[0-9a-f]\x7b64\x7d$\"\x7d," ++
    "\"predicate_id\":\x7b\"type\":\"string\",\"pattern\":\"^[0-9a-f]\x7b64\x7d$\"\x7d," ++
    "\"object_id\":\x7b\"type\":[\"string\",\"null\"],\"pattern\":\"^[0-9a-f]\x7b64\x7d$\"\x7d," ++
    "\"polarity\":\x7b\"type\":\"string\",\"enum\":[\"affirmed\",\"negated\",\"unknown\"]\x7d," ++
    "\"modality\":\x7b\"type\":\"string\",\"enum\":[\"asserted\",\"required\",\"permitted\",\"possible\"," ++
    "\"conditional\",\"unknown\"]\x7d,\"condition_count\":\x7b\"type\":\"integer\",\"minimum\":0," ++
    "\"maximum\":65535\x7d,\"attributed\":\x7b\"type\":\"boolean\"\x7d,\"evidence_spans\":\x7b\"type\":\"array\"," ++
    "\"minItems\":1,\"maxItems\":16,\"items\":\x7b\"type\":\"object\",\"additionalProperties\":false," ++
    "\"required\":[\"start\",\"end\"],\"properties\":\x7b\"start\":\x7b\"type\":\"integer\",\"minimum\":0\x7d," ++
    "\"end\":\x7b\"type\":\"integer\",\"minimum\":0\x7d\x7d\x7d\x7d,\"confidence_ppm\":\x7b\"type\":\"integer\"," ++
    "\"minimum\":0,\"maximum\":1000000\x7d\x7d\x7d\x7d\x7d\x7d").toList

def claimOutputContract : OutputContract where
  schemaDigest := Digest.sha256 (encode claimSchema)
  schemaJson := claimSchema

end Retonr
