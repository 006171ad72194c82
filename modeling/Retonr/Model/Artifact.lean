import Retonr.Inference.Contract
import Retonr.Lib.Json
import Retonr.Types.Claim
import Retonr.Types.TextSafety

/-! Artifact manifests, installations, qualification records and the activation rule.
A record is checked whenever it is stored or read back. -/

namespace Retonr
open Text

namespace ArtifactRole

def machineName : ArtifactRole → Text
  | generation => "generation".toList
  | embedding => "embedding".toList
  | speechRecognition => "speech_recognition".toList
  | voiceActivityDetection => "voice_activity_detection".toList
  | speechSynthesis => "speech_synthesis".toList
  | voice => "voice".toList
  | claimExtraction => "claim_extraction".toList

theorem mem_all (role : ArtifactRole) : role ∈ all := by cases role <;> simp [all]

end ArtifactRole

theorem ArtifactId.eq_of_digest {left right : ArtifactId} (same : left.digest = right.digest) : left = right := by
  cases left
  cases right
  simpa using same

def validBoundedText (value : Text) (maximum : Nat) : Bool :=
  !value.isEmpty && decide (byteLen value ≤ maximum) && !value.any TextSafety.isControl

structure ArtifactSource where
  (origin revision : Text)
  deriving DecidableEq

structure TokenizerIdentity where
  family : Text
  digest : Digest
  deriving DecidableEq

structure LicenseRecord where
  (component identifier : Text)
  textDigest : Digest
  deriving DecidableEq

structure DeclaredCapabilities where
  roles : List ArtifactRole
  languages : List Text
  contextTokens : Option Nat
  deriving DecidableEq

structure ArtifactManifest where
  schemaVersion : Nat
  artifactId : ArtifactId
  source : ArtifactSource
  artifactDigest : Digest
  byteSize : Nat
  (format family : Text)
  (architecture quantization : Option Text)
  tokenizer : Option TokenizerIdentity
  licenses : List LicenseRecord
  declaredCapabilities : DeclaredCapabilities
  deriving DecidableEq

inductive ManifestError where
  | unsupportedSchema (version : Nat)
  | identityMismatch
  | emptyArtifact
  | invalidMetadata
  | invalidLicenses
  | invalidCapabilities
  deriving DecidableEq

def artifactManifestSchemaVersion : Nat := 1

def validateDeclaredCapabilities (value : DeclaredCapabilities) : Except ManifestError Unit :=
  if value.roles.isEmpty ∨ 16 < value.roles.length ∨ 128 < value.languages.length then .error .invalidCapabilities
  else if ¬ value.roles.Nodup ∨ ¬ value.languages.Nodup ∨ value.contextTokens = some 0 ∨
      value.languages.any (fun language => !validBoundedText language 64) then .error .invalidCapabilities
  else .ok ()

namespace ArtifactManifest

def validate (manifest : ArtifactManifest) : Except ManifestError Unit :=
  if manifest.schemaVersion ≠ artifactManifestSchemaVersion then .error (.unsupportedSchema manifest.schemaVersion)
  else if manifest.artifactId.digest ≠ manifest.artifactDigest then .error .identityMismatch
  else if manifest.byteSize = 0 then .error .emptyArtifact
  else if [manifest.source.origin, manifest.source.revision, manifest.format, manifest.family].any
      (fun value => !validBoundedText value 256) then .error .invalidMetadata
  else if (manifest.architecture.toList ++ manifest.quantization.toList).any (fun value => !validBoundedText value 256) ||
      manifest.tokenizer.any (fun tokenizer => !validBoundedText tokenizer.family 256) then .error .invalidMetadata
  else if manifest.licenses.isEmpty ∨ 32 < manifest.licenses.length then .error .invalidLicenses
  else if manifest.licenses.any (fun license => !validBoundedText license.component 128 || !validBoundedText license.identifier 256) ∨
      ¬ (manifest.licenses.map LicenseRecord.component).Nodup then .error .invalidLicenses
  else validateDeclaredCapabilities manifest.declaredCapabilities

def toJson (manifest : ArtifactManifest) : Text :=
  Json.object
    [("schema_version".toList, Json.number manifest.schemaVersion),
     ("artifact_id".toList, Json.string manifest.artifactId.digest.asStr),
     ("source".toList, Json.object
       [("origin".toList, Json.string manifest.source.origin), ("revision".toList, Json.string manifest.source.revision)]),
     ("artifact_digest".toList, Json.string manifest.artifactDigest.asStr),
     ("byte_size".toList, Json.number manifest.byteSize),
     ("format".toList, Json.string manifest.format),
     ("family".toList, Json.string manifest.family),
     ("architecture".toList, Json.optional Json.string manifest.architecture),
     ("quantization".toList, Json.optional Json.string manifest.quantization),
     ("tokenizer".toList, Json.optional (fun tokenizer => Json.object
       [("family".toList, Json.string tokenizer.family), ("digest".toList, Json.string tokenizer.digest.asStr)]) manifest.tokenizer),
     ("licenses".toList, Json.array (manifest.licenses.map fun license => Json.object
       [("component".toList, Json.string license.component), ("identifier".toList, Json.string license.identifier),
        ("text_digest".toList, Json.string license.textDigest.asStr)])),
     ("declared_capabilities".toList, Json.object
       [("roles".toList, Json.array (manifest.declaredCapabilities.roles.map fun role => Json.string role.machineName)),
        ("languages".toList, Json.array (manifest.declaredCapabilities.languages.map Json.string)),
        ("context_tokens".toList, Json.optional Json.number manifest.declaredCapabilities.contextTokens)])]

end ArtifactManifest

structure InstalledArtifact where
  artifactId : ArtifactId
  artifactDigest : Digest
  byteSize : Nat
  storageKey : Text
  deriving DecidableEq

inductive InstallationError where
  | invalidState
  | identityMismatch
  deriving DecidableEq

def isAsciiAlphanumeric (char : Char) : Bool := char.isAlphanum

def validStorageSegment (segment : Text) : Bool :=
  !segment.isEmpty && !(segment == ['.'] || segment == ['.', '.']) &&
    segment.all fun char => isAsciiAlphanumeric char || char == '-' || char == '_' || char == '.'

def validStorageKey (value : Text) : Bool :=
  !value.isEmpty && decide (byteLen value ≤ 128) && (value.splitOn '/').all validStorageSegment

namespace InstalledArtifact

def validate (installed : InstalledArtifact) : Except InstallationError Unit :=
  if installed.byteSize = 0 ∨ validStorageKey installed.storageKey = false then .error .invalidState
  else if installed.artifactId.digest ≠ installed.artifactDigest then .error .identityMismatch
  else .ok ()

def toJson (installed : InstalledArtifact) : Text :=
  Json.object
    [("artifact_id".toList, Json.string installed.artifactId.digest.asStr),
     ("artifact_digest".toList, Json.string installed.artifactDigest.asStr),
     ("byte_size".toList, Json.number installed.byteSize),
     ("storage_key".toList, Json.string installed.storageKey)]

end InstalledArtifact

structure QualificationId where
  digest : Digest
  deriving DecidableEq

theorem QualificationId.eq_of_digest {left right : QualificationId} (same : left.digest = right.digest) : left = right := by
  cases left
  cases right
  simpa using same

structure HardwareTier where
  id : Text
  memoryMib : Nat
  accelerator : Text
  deriving DecidableEq

inductive LicenseDecision where
  | localUseOnly
  | redistributionApproved
  | rejected
  deriving DecidableEq

inductive QualificationStatus where
  | qualified
  | rejected
  deriving DecidableEq

structure QualificationRecord where
  schemaVersion : Nat
  artifactId : ArtifactId
  artifactDigest : Digest
  runtime : RuntimeIdentity
  operatingSystem : Text
  hardwareTier : HardwareTier
  supportedRoles : List ArtifactRole
  (sourceByteLimit contextTokenLimit : Nat)
  (promptTemplateDigest requestPolicyDigest thresholdPolicyDigest : Digest)
  licenseDecision : LicenseDecision
  status : QualificationStatus
  deriving DecidableEq

inductive QualificationRecordError where
  | unsupportedSchema (version : Nat)
  | artifactMismatch
  | invalidMetadata
  | invalidRoles
  | unsupportedRole
  | invalidPolicy
  deriving DecidableEq

def qualificationSchemaVersion : Nat := 1

namespace LicenseDecision

def identityByte : LicenseDecision → UInt8
  | localUseOnly => 0
  | redistributionApproved => 1
  | rejected => 2

def machineName : LicenseDecision → Text
  | localUseOnly => "local_use_only".toList
  | redistributionApproved => "redistribution_approved".toList
  | rejected => "rejected".toList

end LicenseDecision

namespace QualificationStatus

def identityByte : QualificationStatus → UInt8
  | qualified => 0
  | rejected => 1

def machineName : QualificationStatus → Text
  | qualified => "qualified".toList
  | rejected => "rejected".toList

end QualificationStatus

namespace QualificationRecord

def validate (record : QualificationRecord) : Except QualificationRecordError Unit :=
  if record.schemaVersion ≠ qualificationSchemaVersion then .error (.unsupportedSchema record.schemaVersion)
  else if record.artifactId.digest ≠ record.artifactDigest then .error .artifactMismatch
  else if [record.runtime.backend, record.runtime.version, record.operatingSystem, record.hardwareTier.id,
      record.hardwareTier.accelerator].any (fun value => !validBoundedText value 128) then .error .invalidMetadata
  else if 16 < record.supportedRoles.length ∨
      pairwiseAdjacent (fun left right => left.ordinal < right.ordinal) record.supportedRoles = false ∨
      (record.status = .qualified ∧ record.supportedRoles.isEmpty) then .error .invalidRoles
  else if .claimExtraction ∈ record.supportedRoles then .error .unsupportedRole
  else if record.sourceByteLimit = 0 ∨ record.contextTokenLimit = 0 ∨ record.hardwareTier.memoryMib = 0 ∨
      (record.status = .qualified ∧ record.licenseDecision = .rejected) then .error .invalidPolicy
  else .ok ()

def appendText (value : Text) : Bytes := toBeBytes 8 (byteLen value) ++ encode value

def appendOptionalDigest : Option Digest → Bytes
  | some value => 1 :: encode value.asStr
  | none => [0]

def identityMaterial (record : QualificationRecord) : Bytes :=
  encode "retonr:qualification-record:v1\x00".toList ++
    toBeBytes 4 record.schemaVersion ++
    encode record.artifactId.digest.asStr ++
    encode record.artifactDigest.asStr ++
    appendText record.runtime.backend ++
    appendText record.runtime.version ++
    appendOptionalDigest record.runtime.digest ++
    appendText record.operatingSystem ++
    appendText record.hardwareTier.id ++
    toBeBytes 8 record.hardwareTier.memoryMib ++
    appendText record.hardwareTier.accelerator ++
    toBeBytes 8 record.supportedRoles.length ++
    record.supportedRoles.map (fun role => UInt8.ofNat role.ordinal) ++
    toBeBytes 8 record.sourceByteLimit ++
    toBeBytes 4 record.contextTokenLimit ++
    encode record.promptTemplateDigest.asStr ++
    encode record.requestPolicyDigest.asStr ++
    encode record.thresholdPolicyDigest.asStr ++
    [record.licenseDecision.identityByte, record.status.identityByte]

/-- A malformed record is given no identity. -/
def qualificationId (record : QualificationRecord) : Except QualificationRecordError QualificationId :=
  record.validate.map fun _ => ⟨Digest.sha256 record.identityMaterial⟩

def authorizes (record : QualificationRecord) (artifactId : ArtifactId) (role : ArtifactRole) : Bool :=
  decide (record.validate = .ok () ∧ record.status = .qualified ∧ record.licenseDecision ≠ .rejected ∧
    record.artifactId = artifactId ∧ record.artifactId.digest = record.artifactDigest ∧ 0 < record.sourceByteLimit ∧
    0 < record.contextTokenLimit ∧ role ∈ record.supportedRoles)

def toJson (record : QualificationRecord) : Text :=
  Json.object
    [("schema_version".toList, Json.number record.schemaVersion),
     ("artifact_id".toList, Json.string record.artifactId.digest.asStr),
     ("artifact_digest".toList, Json.string record.artifactDigest.asStr),
     ("runtime".toList, Json.object
       [("backend".toList, Json.string record.runtime.backend), ("version".toList, Json.string record.runtime.version),
        ("digest".toList, Json.optional (fun digest => Json.string digest.asStr) record.runtime.digest)]),
     ("operating_system".toList, Json.string record.operatingSystem),
     ("hardware_tier".toList, Json.object
       [("id".toList, Json.string record.hardwareTier.id), ("memory_mib".toList, Json.number record.hardwareTier.memoryMib),
        ("accelerator".toList, Json.string record.hardwareTier.accelerator)]),
     ("supported_roles".toList, Json.array (record.supportedRoles.map fun role => Json.string role.machineName)),
     ("source_byte_limit".toList, Json.number record.sourceByteLimit),
     ("context_token_limit".toList, Json.number record.contextTokenLimit),
     ("prompt_template_digest".toList, Json.string record.promptTemplateDigest.asStr),
     ("request_policy_digest".toList, Json.string record.requestPolicyDigest.asStr),
     ("threshold_policy_digest".toList, Json.string record.thresholdPolicyDigest.asStr),
     ("license_decision".toList, Json.string record.licenseDecision.machineName),
     ("status".toList, Json.string record.status.machineName)]

end QualificationRecord

structure QualificationInvalidation where
  qualificationId : QualificationId
  reasonCode : Text

namespace QualificationInvalidation

def validReason (reason : Text) : Bool :=
  !reason.isEmpty && decide (byteLen reason ≤ 64) &&
    reason.all fun char => ('a' ≤ char && char ≤ 'z') || char.isDigit || char == '_'

def toJson (invalidation : QualificationInvalidation) : Text :=
  Json.object
    [("qualification_id".toList, Json.string invalidation.qualificationId.digest.asStr),
     ("reason_code".toList, Json.string invalidation.reasonCode)]

end QualificationInvalidation

structure ActivationId where
  digest : Digest

inductive ActivationAction where
  | activate
  | deactivate

structure ActivationDecision where
  activationId : ActivationId
  action : ActivationAction
  role : ArtifactRole
  artifactId : Option ArtifactId
  qualificationId : Option QualificationId

namespace ActivationDecision

def valid (decision : ActivationDecision) : Bool :=
  match decision.action with
  | .activate => decision.artifactId.isSome && decision.qualificationId.isSome
  | .deactivate => decision.artifactId.isNone && decision.qualificationId.isNone

def toJson (decision : ActivationDecision) : Text :=
  Json.object
    [("activation_id".toList, Json.string decision.activationId.digest.asStr),
     ("action".toList, Json.string (match decision.action with
       | .activate => "activate".toList
       | .deactivate => "deactivate".toList)),
     ("role".toList, Json.string decision.role.machineName),
     ("artifact_id".toList, Json.optional (fun id => Json.string id.digest.asStr) decision.artifactId),
     ("qualification_id".toList, Json.optional (fun id => Json.string id.digest.asStr) decision.qualificationId)]

end ActivationDecision

structure ActiveArtifactBinding where
  role : ArtifactRole
  artifactId : ArtifactId
  qualificationId : QualificationId
  artifactDigest : Digest
  deriving DecidableEq

namespace ActiveArtifactBinding

def toJson (binding : ActiveArtifactBinding) : Text :=
  Json.object
    [("role".toList, Json.string binding.role.machineName),
     ("artifact_id".toList, Json.string binding.artifactId.digest.asStr),
     ("qualification_id".toList, Json.string binding.qualificationId.digest.asStr),
     ("artifact_digest".toList, Json.string binding.artifactDigest.asStr)]

end ActiveArtifactBinding

inductive ActivationError where
  | invalidInstallation
  | artifactMismatch
  | invalidatedQualification
  | unqualifiedRole

/-- The conditions an activation must meet before its transaction commits. -/
def activate (installed : InstalledArtifact) (qualification : QualificationRecord)
    (invalidations : List QualificationInvalidation) (role : ArtifactRole) : Except ActivationError ActiveArtifactBinding :=
  match installed.validate with
  | .error .invalidState => .error .invalidInstallation
  | .error .identityMismatch => .error .artifactMismatch
  | .ok () =>
      if installed.artifactId.digest ≠ installed.artifactDigest ∨ installed.artifactId ≠ qualification.artifactId ∨
          installed.artifactDigest ≠ qualification.artifactDigest then .error .artifactMismatch
      else
        match qualification.qualificationId with
        | .error _ => .error .unqualifiedRole
        | .ok qualificationId =>
            if invalidations.any (fun item => item.qualificationId == qualificationId) then .error .invalidatedQualification
            else if qualification.authorizes installed.artifactId role = false then .error .unqualifiedRole
            else .ok { role, artifactId := installed.artifactId, qualificationId, artifactDigest := installed.artifactDigest }

end Retonr
