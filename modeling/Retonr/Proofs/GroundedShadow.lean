import Retonr.Proofs.ShadowJoin
import Retonr.Proofs.Transaction

/-! When the shadow join leaves a grounded rewrite alone. Its observer never changes a
transaction, so the join can only fail the rewrite, and it does so exactly on a text that
exceeds the limits of the binding. -/

namespace Retonr.GroundedRewrite
open Text CandidateCheck Retonr.Except ClaimExtraction

variable {environment : GroundedEnvironment} {service : GroundedRewriteService} {request : GroundedRewriteRequest}
  {parsed : ParsedTextDocument} {unit : RewriteUnit} {plan : ProtectionPlan} {generation : GroundedGeneration}

theorem withTrace_same {left right : CandidateCheckResult} (same : SameTransaction left right) (trace : Option GroundedTrace) :
    SameTransaction (withTrace left trace) (withTrace right trace) := by
  cases trace with
  | none => exact same
  | some trace => exact ⟨same.output, same.status, same.reason, same.selected⟩

theorem transact_observed (environment : GroundedEnvironment) (parsed : ParsedTextDocument) (options : RewriteOptions)
    (candidates : List GeneratedCandidate) (cancelled : Bool) (claimShadow : Option ClaimShadowObserver) (cancellation : CancellationToken)
    (trace : Option GroundedTrace) :
    Related Eq SameTransaction (transact environment parsed options candidates cancelled none cancellation trace)
      (transact environment parsed options candidates cancelled claimShadow cancellation trace) := by
  have same := runPlainTextTransaction_observed environment.base parsed (preparedCandidateGenerator candidates cancelled) options
    claimShadow cancellation
  exact same.map fun _ _ related => withTrace_same related trace

/-- The rewrite reaches its candidates: the source parses, the options are supported, the unit can
be planned, and the strategy generates. -/
structure Generates (environment : GroundedEnvironment) (service : GroundedRewriteService) (request : GroundedRewriteRequest)
    (parsed : ParsedTextDocument) (unit : RewriteUnit) (plan : ProtectionPlan) (generation : GroundedGeneration) : Prop where
  accepted : TextAdapter.parse request.source = .ok parsed
  supported : Policy.validateRewriteOptions (rewriteOptions request) = .ok ()
  first : parsed.document.rewriteUnits.head? = some unit
  planned : ProtectionPlan.build environment.base.unicode unit.text request.protectedTerms = .ok plan
  generated : service.strategy.generate environment.codec (strategyRequest request unit plan) service.backend = .ok generation

section
variable (generates : Generates environment service request parsed unit plan generation)
include generates

theorem Generates.unique {other : ParsedTextDocument} {otherUnit : RewriteUnit} {otherPlan : ProtectionPlan}
    {otherGeneration : GroundedGeneration} (again : Generates environment service request other otherUnit otherPlan otherGeneration) :
    unit = otherUnit ∧ plan = otherPlan ∧ generation = otherGeneration := by
  cases generates.accepted.symm.trans again.accepted
  cases generates.first.symm.trans again.first
  cases generates.planned.symm.trans again.planned
  cases generates.generated.symm.trans again.generated
  exact ⟨rfl, rfl, rfl⟩

theorem Generates.rewrite_eq (binding : Option ClaimShadowJoinBinding) (polls : GroundedPolls) :
    rewrite environment service { request with claimShadow := binding } polls =
      joinAndTransact environment service.backend binding (rewriteOptions request) parsed unit plan generation polls := by
  have options : rewriteOptions { request with claimShadow := binding } = rewriteOptions request := rfl
  have asked : strategyRequest { request with claimShadow := binding } unit plan = strategyRequest request unit plan := rfl
  have planned : ProtectionPlan.build environment.base.unicode unit.text (rewriteOptions request).protectedTerms = .ok plan :=
    generates.planned
  simp only [rewrite, rewritePlanned, options, asked, generates.accepted, generates.supported, generates.first, planned,
    generates.generated]

omit generates in
/-- A rewrite that generates nothing never looks at the binding. -/
theorem rewrite_ungenerated (nothing : ∀ parsed unit plan generation, ¬ Generates environment service request parsed unit plan generation)
    (binding : Option ClaimShadowJoinBinding) (polls : GroundedPolls) :
    rewrite environment service { request with claimShadow := none } polls =
      rewrite environment service { request with claimShadow := binding } polls := by
  have options : ∀ other, rewriteOptions { request with claimShadow := other } = rewriteOptions request := fun _ => rfl
  have asked : ∀ other unit plan, strategyRequest { request with claimShadow := other } unit plan = strategyRequest request unit plan :=
    fun _ _ _ => rfl
  simp only [rewrite, rewritePlanned, options, asked]
  split
  · rfl
  next parsed accepted =>
    split
    · rfl
    next supported =>
      split
      · rfl
      next unit first =>
        split
        · rfl
        · rfl
        · rfl
        next plan planned =>
          split
          · rfl
          next generation generated =>
            exact absurd ⟨accepted, supported, first, planned, generated⟩ (nothing parsed unit plan generation)

theorem Generates.units : parsed.document.rewriteUnits = [unit] := by
  have few := few_units generates.accepted
  have first := generates.first
  match units : parsed.document.rewriteUnits, first, few with
  | [only], first, _ => simpa [units] using first

theorem Generates.transact_answers (claimShadow : Option ClaimShadowObserver) :
    ∃ result, transact environment parsed (rewriteOptions request) generation.candidates false claimShadow .never
      (some generation.trace) = .ok result := by
  have answerable : (plainTextEngine environment.base parsed (preparedCandidateGenerator generation.candidates false)
      claimShadow).Answerable (rewriteOptions request) parsed.document.rewriteUnits := by
    refine ⟨fun _ => ⟨generation.candidates, rfl⟩, ?_⟩
    intro other member
    rw [generates.units, List.mem_singleton] at member
    subst member
    exact ⟨plan, generates.planned⟩
  obtain ⟨result, done⟩ := runPlainTextTransaction_answers generates.accepted answerable generates.supported .never
  exact ⟨withTrace result (some generation.trace), by simp only [transact, done, Except.map]⟩

/-- Generated candidates that the binding admits are judged alike with and without the join. -/
theorem Generates.rewrite_admitted {binding : ClaimShadowJoinBinding} (quiet : service.backend.Quiet) (wellFormed : binding.WellFormed)
    (admitted : ∀ restored ∈ restoredCandidates environment plan generation.candidates, binding.Admits unit.id unit.text restored) :
    Related Eq SameTransaction (rewrite environment service { request with claimShadow := none } .never)
      (rewrite environment service { request with claimShadow := some binding } .never) := by
  rw [generates.rewrite_eq none .never, generates.rewrite_eq (some binding) .never]
  rcases ClaimShadowJoin.prepareForCandidates_cases environment.parsePayload quiet wellFormed unit.id unit.text
    (restoredCandidates environment plan generation.candidates) 0 with ⟨⟨shadows, prepared⟩, _⟩ | ⟨_, large⟩
  · obtain ⟨shadow, joined⟩ : ∃ shadow, joinAndTransact environment service.backend (some binding) (rewriteOptions request) parsed unit
        plan generation .never = transact environment parsed (rewriteOptions request) generation.candidates false shadow .never
          (some generation.trace) := by
      simp only [joinAndTransact, prepareClaimShadow, GroundedPolls.never, prepared, ok_bind]
      cases shadows.isEmpty with
      | true => exact ⟨none, rfl⟩
      | false => exact ⟨some (ClaimShadowJoin.observer shadows), rfl⟩
    rw [joined]
    exact transact_observed environment parsed (rewriteOptions request) generation.candidates false shadow .never (some generation.trace)
  · exact absurd admitted large

/-- One that it does not admit fails the rewrite, which returns a result without the join. -/
theorem Generates.rewrite_refused {binding : ClaimShadowJoinBinding} (quiet : service.backend.Quiet) (wellFormed : binding.WellFormed)
    (large : ¬ ∀ restored ∈ restoredCandidates environment plan generation.candidates, binding.Admits unit.id unit.text restored) :
    (∃ result, rewrite environment service { request with claimShadow := none } .never = .ok result) ∧
      ∃ fault, rewrite environment service { request with claimShadow := some binding } .never = .error (.claimExtraction fault) ∧
        ClaimExtraction.Exceeds fault := by
  rw [generates.rewrite_eq none .never, generates.rewrite_eq (some binding) .never]
  refine ⟨generates.transact_answers none, ?_⟩
  rcases ClaimShadowJoin.prepareForCandidates_cases environment.parsePayload quiet wellFormed unit.id unit.text
    (restoredCandidates environment plan generation.candidates) 0 with ⟨_, all⟩ | ⟨⟨fault, failed, exceeds⟩, _⟩
  · exact absurd all large
  · refine ⟨fault, ?_, exceeds⟩
    simp only [joinAndTransact, prepareClaimShadow, GroundedPolls.never, failed]
    rcases exceeds with rfl | ⟨_, _, rfl⟩ <;> rfl

end

/-- For a well-formed binding and a backend whose extraction calls are not cancelled or out of time,
the rewrite with the binding succeeds exactly when the plain one does, with the same bytes, status,
reason and selection, if and only if the binding admits the source with every text the model
generated and the plan restores. -/
theorem shadow_join_is_harmless_iff_admitted (environment : GroundedEnvironment) (service : GroundedRewriteService)
    (request : GroundedRewriteRequest) (binding : ClaimShadowJoinBinding) (quiet : service.backend.Quiet)
    (wellFormed : binding.WellFormed) :
    Related (fun _ _ => True) SameTransaction (rewrite environment service { request with claimShadow := none } .never)
        (rewrite environment service { request with claimShadow := some binding } .never) ↔
      ∀ parsed unit plan generation, Generates environment service request parsed unit plan generation →
        ∀ restored ∈ restoredCandidates environment plan generation.candidates, binding.Admits unit.id unit.text restored := by
  constructor
  · intro related parsed unit plan generation generates
    by_contra large
    obtain ⟨⟨result, plain⟩, fault, failed, _⟩ := generates.rewrite_refused quiet wellFormed large
    rw [plain, failed] at related
    cases related
  · intro admitted
    have same : Related Eq SameTransaction (rewrite environment service { request with claimShadow := none } .never)
        (rewrite environment service { request with claimShadow := some binding } .never) := by
      by_cases reached : ∃ parsed unit plan generation, Generates environment service request parsed unit plan generation
      · obtain ⟨parsed, unit, plan, generation, generates⟩ := reached
        exact generates.rewrite_admitted quiet wellFormed (admitted parsed unit plan generation generates)
      · rw [← rewrite_ungenerated (fun parsed unit plan generation generates => reached ⟨parsed, unit, plan, generation, generates⟩)
          (some binding) .never]
        cases rewrite environment service { request with claimShadow := none } .never with
        | error fault => exact .error rfl
        | ok result => exact .ok (.refl result)
    exact same.mono (fun _ _ _ => trivial) fun _ _ related => related

def sampleDigest : Digest := Digest.sha256 []

def sampleOutput : OutputContract := ⟨Digest.sha256 (encode ['\x7b', '\x7d']), ['\x7b', '\x7d']⟩

def sampleSampling : SamplingParameters := ⟨.zero, .one, none⟩

def samplePolicy : GroundedPolicy where
  schemaVersion := groundedPolicySchemaVersion
  artifactId := ⟨sampleDigest⟩
  artifactDigest := sampleDigest
  promptTemplate := ['R']
  promptTemplateDigest := Digest.sha256 (encode ['R'])
  output := sampleOutput
  candidateCount := 1
  sourceByteLimit := 100
  inputByteLimit := 100
  contextTokenLimit := 100
  outputTokenLimit := 100
  candidateByteLimit := 100
  sampling := sampleSampling
  reasoning := .disabled

/-- A service whose model answers every prompt with `Hi!` and extracts no claims. -/
def sampleService : GroundedRewriteService where
  strategy := ⟨samplePolicy, rfl⟩
  backend :=
    { discover := fun _ => .ok
        ⟨⟨[], [], none⟩, ⟨[.generation], [sampleOutput.schemaDigest], false, true⟩, [⟨⟨sampleDigest⟩, sampleDigest⟩]⟩
      generate := fun _ => .ok ⟨⟨[], [], none⟩, ⟨sampleDigest⟩, sampleDigest, [⟨0, ['H', 'i', '!']⟩], ⟨none, none, none⟩⟩
      completeStructured := fun _ _ => .error ⟨.permanent, []⟩ }

def sampleEnvironment : GroundedEnvironment where
  base := ⟨Unicode.ascii, fun _ => 0⟩
  codec := ⟨fun _ => true, fun envelope => some envelope.maskedSource⟩
  parsePayload _ := none

def sampleRequest : GroundedRewriteRequest := ⟨encode ['H', 'i'], [], .literal, [], none, none, none⟩

def sampleManifest : ExtractorManifest where
  extractorId := ['x']
  extractorVersion := ['1']
  subjectDigest := sampleDigest
  promptDigest := Digest.sha256 (encode claimPairPromptTemplate)
  claimOutputContractDigest := claimOutputContract.schemaDigest
  claimOperationContractDigest := Digest.sha256 (encode claimPairOperationId)
  confidencePolicyDigest := sampleDigest
  languagePolicyDigest := sampleDigest
  identified := by decide

/-- A binding with the given limit on the length of a text. -/
def sampleBinding (sourceByteLimit : Nat) : ClaimShadowJoinBinding where
  manifest := sampleManifest
  artifactId := ⟨sampleDigest⟩
  artifactDigest := sampleDigest
  minimumConfidencePpm := 0
  sourceByteLimit
  inputByteLimit := 1000
  contextTokenLimit := 100
  outputTokenLimit := 100
  outputByteLimit := 100
  sampling := sampleSampling

theorem sampleService_quiet : sampleService.backend.Quiet := by
  refine ⟨nofun, ?_⟩
  rintro call asked fault failed
  cases failed
  exact ⟨nofun, nofun⟩

theorem sampleBinding_wellFormed {limit : Nat} (positive : limit ≠ 0) : (sampleBinding limit).WellFormed := by
  refine ⟨by simp [manifestMatches, sampleBinding, sampleManifest], ?_⟩
  have sampled : sampleSampling.inRange = true := by decide
  simp [boundsAreValid, sampleBinding, positive, sampled]

/-- The sample reaches its candidates; a limit of 100 bytes admits them and one of 2 does not. -/
theorem sample_generates : ∃ parsed unit plan generation, Generates sampleEnvironment sampleService sampleRequest parsed unit plan generation ∧
      ((∀ restored ∈ restoredCandidates sampleEnvironment plan generation.candidates, (sampleBinding 100).Admits unit.id unit.text restored) ∧
        ¬ ∀ restored ∈ restoredCandidates sampleEnvironment plan generation.candidates,
          (sampleBinding 2).Admits unit.id unit.text restored) := by
  have computed : (TextAdapter.parse sampleRequest.source).toOption.map (fun parsed =>
      parsed.document.rewriteUnits.head?.map fun unit =>
        (ProtectionPlan.build sampleEnvironment.base.unicode unit.text sampleRequest.protectedTerms).toOption.map fun plan =>
          (sampleService.strategy.generate sampleEnvironment.codec (strategyRequest sampleRequest unit plan)
            sampleService.backend).toOption.map fun (generation : GroundedGeneration) =>
              decide ((∀ restored ∈ restoredCandidates sampleEnvironment plan generation.candidates,
                  (sampleBinding 100).Admits unit.id unit.text restored) ∧
                ¬ ∀ restored ∈ restoredCandidates sampleEnvironment plan generation.candidates,
                  (sampleBinding 2).Admits unit.id unit.text restored)) = some (some (some (some true))) := by
    decide +kernel
  obtain ⟨parsed, accepted, computed⟩ := map_toOption_eq_some.mp computed
  obtain ⟨unit, first, computed⟩ := Option.map_eq_some_iff.mp computed
  obtain ⟨plan, planned, computed⟩ := map_toOption_eq_some.mp computed
  obtain ⟨generation, generated, computed⟩ := map_toOption_eq_some.mp computed
  exact ⟨parsed, unit, plan, generation, ⟨accepted, by decide, first, planned, generated⟩, of_decide_eq_true computed⟩

theorem shadow_join_is_harmless_iff_admitted_wide :
    sampleService.backend.Quiet ∧ (sampleBinding 100).WellFormed ∧
      Related (fun _ _ => True) SameTransaction
        (rewrite sampleEnvironment sampleService { sampleRequest with claimShadow := none } .never)
        (rewrite sampleEnvironment sampleService { sampleRequest with claimShadow := some (sampleBinding 100) } .never) := by
  have wellFormed : (sampleBinding 100).WellFormed := sampleBinding_wellFormed (by decide)
  refine ⟨sampleService_quiet, wellFormed, ?_⟩
  apply (shadow_join_is_harmless_iff_admitted sampleEnvironment sampleService sampleRequest _ sampleService_quiet wellFormed).mpr
  intro parsed unit plan generation generates
  obtain ⟨_, _, _, _, sample, admitted, _⟩ := sample_generates
  obtain ⟨rfl, rfl, rfl⟩ := sample.unique generates
  exact admitted

/-- A binding whose limit holds the source but not the generated text turns a rewrite into a failure. -/
theorem generated_text_over_the_limit_fails_the_rewrite :
    sampleService.backend.Quiet ∧ (sampleBinding 2).WellFormed ∧
      (∃ result, rewrite sampleEnvironment sampleService { sampleRequest with claimShadow := none } .never = .ok result) ∧
      ∃ fault, rewrite sampleEnvironment sampleService { sampleRequest with claimShadow := some (sampleBinding 2) } .never =
        .error (.claimExtraction fault) := by
  have wellFormed : (sampleBinding 2).WellFormed := sampleBinding_wellFormed (by decide)
  obtain ⟨_, _, _, _, sample, _, large⟩ := sample_generates
  obtain ⟨plain, fault, failed, _⟩ := sample.rewrite_refused sampleService_quiet wellFormed large
  exact ⟨sampleService_quiet, wellFormed, plain, fault, failed⟩

end Retonr.GroundedRewrite
