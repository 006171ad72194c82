import Retonr.App.CandidateCheck

/-! The grounded rewrite: generation over the masked source, the optional shadow join,
and the common plain-text transaction. -/

namespace Retonr
open Text

structure GroundedRewriteRequest where
  source : Bytes
  protectedTerms : List Text
  mode : RewriteMode
  styleContext : Text
  claimShadow : Option ClaimShadowJoinBinding
  layout : Option LayoutConstraints
  editLevel : Option EditLevel

/-- What the service uses from outside the modelled code. -/
structure GroundedEnvironment where
  base : Environment
  codec : PromptCodec
  parsePayload : Text → Option ClaimPayload

/-- Every poll of the caller's token and deadline during one rewrite. -/
structure GroundedPolls where
  engine : CancellationToken
  generator : Bool
  extraction : ClaimExtractionContext

namespace GroundedPolls

def never : GroundedPolls := ⟨.never, false, .never⟩

end GroundedPolls

structure GroundedRewriteService where
  strategy : GroundedStrategy
  backend : InferenceBackend

namespace GroundedRewrite

def mapProtectedKind : ProtectedKind → GroundedSentinelKind
  | .declaredTerm => .declaredTerm
  | .url => .url
  | .email => .email
  | .number => .number

def mapTrace (trace : GroundedTrace) : GenerationProvenance where
  schemaVersion := generationProvenanceSchemaVersion
  strategyId := trace.strategyId
  runtime := ⟨trace.runtime.backend, trace.runtime.version, trace.runtime.digest⟩
  artifactId := trace.artifactId.digest
  artifactDigest := trace.artifactDigest
  promptTemplateDigest := trace.promptTemplateDigest
  inputDigest := trace.inputDigest
  outputSchemaDigest := trace.outputSchemaDigest
  candidateCount := trace.candidateCount
  usage := ⟨trace.usage.inputTokens, trace.usage.outputTokens, trace.usage.generationMicros⟩

def withTrace (transaction : CandidateCheckResult) (trace : Option GroundedTrace) : CandidateCheckResult :=
  match trace with
  | some trace => { transaction with record := transaction.record.withGeneration (mapTrace trace) }
  | none => transaction

def isCancelled : GroundedError → Bool
  | .discovery fault => fault.kind == .cancelled
  | .generation fault => fault.kind == .cancelled
  | _ => false

def rewriteOptions (request : GroundedRewriteRequest) : RewriteOptions :=
  { RewriteOptions.default with
    mode := request.mode
    protectedTerms := request.protectedTerms
    layout := request.layout
    editLevel := request.editLevel }

def strategyRequest (request : GroundedRewriteRequest) (unit : RewriteUnit) (plan : ProtectionPlan) : GroundedRequest where
  unitId := unit.id
  maskedSource := plan.maskedSource
  sentinels := plan.values.map fun value => ⟨value.token, mapProtectedKind value.kind⟩
  mode := request.mode
  styleContext := request.styleContext

variable (environment : GroundedEnvironment)

/-- A transaction over prepared candidates; `cancelled` is what their generator polls. -/
def transact (parsed : ParsedTextDocument) (options : RewriteOptions) (candidates : List GeneratedCandidate) (cancelled : Bool)
    (claimShadow : Option ClaimShadowObserver) (cancellation : CancellationToken) (trace : Option GroundedTrace) :
    Except AppError CandidateCheckResult :=
  (CandidateCheck.runPlainTextTransaction environment.base parsed (preparedCandidateGenerator candidates cancelled) options claimShadow
    cancellation).map fun transaction => withTrace transaction trace

def emptyTransaction (parsed : ParsedTextDocument) (options : RewriteOptions) (polls : GroundedPolls) :
    Except AppError CandidateCheckResult :=
  transact environment parsed options [] polls.generator none polls.engine none

def cancelledTransaction (parsed : ParsedTextDocument) (candidates : List GeneratedCandidate) (options : RewriteOptions)
    (trace : Option GroundedTrace) : Except AppError CandidateCheckResult :=
  transact environment parsed options candidates true none ⟨fun _ => true⟩ trace

/-- The candidates whose protected values can be put back, in order. -/
def restoredCandidates (plan : ProtectionPlan) (candidates : List GeneratedCandidate) : List Text :=
  candidates.filterMap fun candidate => (plan.restore environment.base.unicode candidate.text).toOption

/-- The observer of a non-empty set of prepared comparisons, if there is a binding. -/
def prepareClaimShadow (backend : InferenceBackend) (binding : Option ClaimShadowJoinBinding) (unit : RewriteUnit)
    (plan : ProtectionPlan) (candidates : List GeneratedCandidate) (context : ClaimExtractionContext) :
    Except ClaimExtractionError (Option ClaimShadowObserver) :=
  match binding with
  | none => .ok none
  | some binding => do
      let shadows ← ClaimShadowJoin.prepareForCandidates environment.parsePayload backend binding unit.id unit.text context 0
        (restoredCandidates environment plan candidates)
      if shadows.isEmpty then .ok none else .ok (some (ClaimShadowJoin.observer shadows))

/-- The rewrite from the generated candidates on. -/
def joinAndTransact (backend : InferenceBackend) (binding : Option ClaimShadowJoinBinding) (options : RewriteOptions)
    (parsed : ParsedTextDocument) (unit : RewriteUnit) (plan : ProtectionPlan) (generation : GroundedGeneration)
    (polls : GroundedPolls) : Except AppError CandidateCheckResult :=
  match prepareClaimShadow environment backend binding unit plan generation.candidates polls.extraction with
  | .error .cancelled => cancelledTransaction environment parsed generation.candidates options (some generation.trace)
  | .error fault => .error (.claimExtraction fault)
  | .ok shadow =>
      transact environment parsed options generation.candidates polls.generator shadow polls.engine (some generation.trace)

/-- Generation and what follows it, for a unit whose protected values were planned. -/
def rewritePlanned (service : GroundedRewriteService) (request : GroundedRewriteRequest) (parsed : ParsedTextDocument)
    (unit : RewriteUnit) (plan : ProtectionPlan) (polls : GroundedPolls) : Except AppError CandidateCheckResult :=
  match service.strategy.generate environment.codec (strategyRequest request unit plan) service.backend with
  | .error fault =>
      if isCancelled fault then cancelledTransaction environment parsed [] (rewriteOptions request) none
      else .error (.grounded fault)
  | .ok generation =>
      joinAndTransact environment service.backend request.claimShadow (rewriteOptions request) parsed unit plan generation polls

def rewrite (service : GroundedRewriteService) (request : GroundedRewriteRequest) (polls : GroundedPolls) :
    Except AppError CandidateCheckResult :=
  match TextAdapter.parse request.source with
  | .error fault => .error (.textAdapter fault)
  | .ok parsed =>
      match Policy.validateRewriteOptions (rewriteOptions request) with
      | .error fault => .error (.engine fault)
      | .ok () =>
          match parsed.document.rewriteUnits.head? with
          | none => emptyTransaction environment parsed (rewriteOptions request) polls
          | some unit =>
              match ProtectionPlan.build environment.base.unicode unit.text (rewriteOptions request).protectedTerms with
              | .error .reservedTokenInSource => emptyTransaction environment parsed (rewriteOptions request) polls
              | .error .ambiguousSurfaceMapping => emptyTransaction environment parsed (rewriteOptions request) polls
              | .error fault => .error (.protection fault)
              | .ok plan => rewritePlanned environment service request parsed unit plan polls

end GroundedRewrite

end Retonr
