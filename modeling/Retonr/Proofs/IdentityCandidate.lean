import Retonr.Proofs.Masking
import Retonr.Proofs.Transaction

/-! The unit text offered as its own candidate. Every gate of the cascade accepts it as soon
as a plan could be built: the plan has already masked its own source, and every later gate
compares the text with itself. -/

namespace Retonr
open List

theorem CandidateId.isScopedTo_first (unit : RewriteUnitId) : (CandidateId.new unit 0).isScopedTo unit = true := by
  have last : rsplitOnce ":candidate:".toList (":candidate:".toList ++ decimal 0) = some ([], ['0']) := rfl
  have split := rsplitOnce_append last unit.asStr
  rw [← append_assoc, append_nil] at split
  simp only [isScopedTo, new, split, beq_self_eq_true]

theorem build_checked {unicode : Unicode} {source : Text} {terms : List Text} {plan : ProtectionPlan}
    (built : ProtectionPlan.build unicode source terms = .ok plan) :
    Text.byteLen source ≤ maxProtectedTextBytes ∧ protectedTermsAreValid terms = true := by
  simp only [ProtectionPlan.build] at built
  split at built
  · cases built
  next small =>
    split at built
    · cases built
    next valid => exact ⟨Nat.le_of_not_lt small, by simpa using valid⟩

/-- A batch of one eligible candidate is decided by that candidate. -/
theorem RewriteEngine.evaluateUnit_single {engine : RewriteEngine} {unit : RewriteUnit} {options : RewriteOptions} {plan : ProtectionPlan}
    {candidate : GeneratedCandidate} {evaluated : EvaluatedCandidate}
    (built : ProtectionPlan.build engine.environment.unicode unit.text options.protectedTerms = .ok plan)
    (generated : engine.generator.generate (generationRequest unit plan options) = .ok [candidate])
    (batch : Policy.candidateBatchReason unit.id [candidate] = none)
    (assessed : engine.assessCandidate unit candidate plan options = evaluated) (eligible : evaluated.assessment.eligible = true) :
    engine.evaluateUnit unit options .never [] = .ok (.ok
      { selected := evaluated.candidate.generated.id
        replacement := if evaluated.candidate.restored ≠ unit.text then some evaluated.candidate.restored else none
        assessments := [evaluated.assessment] }) := by
  simp only [evaluateUnit, CancellationToken.never, Bool.false_eq_true, if_false, built, generated, evaluateBatch, batch, assessBatch,
    BatchState.record, assessed, eligible, if_true, nil_append, Except.ok_bind]
  rfl

namespace CandidateCheck
open RewriteEngine Text

variable {environment : Environment} {input : Bytes} {parsed : ParsedTextDocument} {unit : RewriteUnit} {options : RewriteOptions}
  {plan : ProtectionPlan} {claimShadow : Option ClaimShadowObserver} {generator : CandidateGenerator}

theorem plainTextStructure_self (accepted : TextAdapter.parse input = .ok parsed) (single : parsed.document.rewriteUnits = [unit]) :
    (plainTextStructure parsed).validate unit unit.text = .preserved := by
  obtain ⟨_, _, _, hasUtf8Bom, text, describes, _⟩ := TextAdapter.parse_sound accepted
  have safe := (TextSafety.replacementPreservesTextSafety_iff unit.text unit.text).mpr (TextSafety.NoSmuggling.refl unit.text)
  have same : TextAdapter.replacementPreservesStructure parsed unit.text = true := by
    simp [TextAdapter.replacementPreservesStructure, describes.structural, describes.marked, describes.unit_text single]
  simp only [plainTextStructure, safe, same, Bool.true_eq_false, if_false, if_true]

theorem semanticGate_self (unitId : RewriteUnitId) (text : Text) (literal : options.mode = .literal)
    (bounded : Policy.unitScore options.minimumSemanticConfidence = true) :
    ((plainTextEngine environment parsed generator claimShadow).semanticGate unitId text text options).2.1 = true := by
  have answer : (Semantic.literalSemanticEvaluator environment.unicode).evaluate text text options.mode =
      Semantic.finding .pass (some .one) .literalTokensEqual := by
    simp [Semantic.literalSemanticEvaluator_evaluate, literal]
  have confident : Binary32.le options.minimumSemanticConfidence .one = true := by
    simp only [Policy.unitScore, Binary32.within, Bool.and_eq_true] at bounded
    exact bounded.2.2
  have valid : (Semantic.finding .pass (some .one) .literalTokensEqual).validate = .ok () := rfl
  have bound : Semantic.evidenceMatches (Semantic.finding .pass (some .one) .literalTokensEqual) unitId text text = true := rfl
  have gate : GateResult.validate ⟨Gates.semanticGate, "literal-token-sequence-v1".toList, .pass, .error,
      [Gates.semanticEvidence ⟨.literalTokensEqual, none⟩], some .one⟩ = .ok () := rfl
  have retained : (plainTextEngine environment parsed generator claimShadow).retainedSemanticGate text text options
      (Semantic.finding .pass (some .one) .literalTokensEqual) =
        (⟨Gates.semanticGate, "literal-token-sequence-v1".toList, .pass, .error,
          [Gates.semanticEvidence ⟨.literalTokensEqual, none⟩], some .one⟩, true, .semanticUncertain) := by
    simp only [retainedSemanticGate, Semantic.finding, Option.any_some, confident, beq_self_eq_true, Bool.and_self, Bool.true_eq_false,
      and_false, if_false, reduceCtorEq, Bool.not_true, Bool.false_and, Bool.false_eq_true, map_cons, map_nil]
    exact if_pos gate
  have judged : (plainTextEngine environment parsed generator claimShadow).semanticGate unitId text text options =
      (plainTextEngine environment parsed generator claimShadow).retainedSemanticGate text text options
        (Semantic.finding .pass (some .one) .literalTokensEqual) := by
    show (if _ then _ else _) = _
    rw [show (plainTextEngine environment parsed generator claimShadow).semantic.evaluate text text options.mode = _ from answer]
    simp [valid, bound]
  rw [judged, retained]

/-- The unit text as the caller's one candidate. -/
def selfCandidate (unit : RewriteUnit) : GeneratedCandidate where
  id := CandidateId.new unit.id 0
  unitId := unit.id
  text := unit.text
  textKind := .raw
  rank := .default

theorem assessMeaning_self (engine : RewriteEngine) (candidate : GeneratedCandidate) (restored : Text) (gates : List GateResult)
    (passed : (engine.semanticGate unit.id unit.text restored options).2.1 = true) :
    (engine.assessMeaning unit candidate options restored gates).assessment.eligible = true ∧
      (engine.assessMeaning unit candidate options restored gates).candidate.restored = restored := by
  simp only [assessMeaning, passed, Bool.true_eq_false, if_false, and_self]

theorem assessCandidate_self (accepted : TextAdapter.parse input = .ok parsed) (single : parsed.document.rewriteUnits = [unit])
    (built : ProtectionPlan.build environment.unicode unit.text options.protectedTerms = .ok plan) (literal : options.mode = .literal)
    (unconstrained : options.layout = none) (bounded : Policy.unitScore options.minimumSemanticConfidence = true) :
    let evaluated := (plainTextEngine environment parsed generator claimShadow).assessCandidate unit (selfCandidate unit) plan options
    evaluated.assessment.eligible = true ∧ evaluated.candidate.restored = unit.text := by
  obtain ⟨issued, _, masked⟩ := build_cases built
  have restored := (issued.mask_restore masked).2
  have contract : Policy.candidateContractIsValid (selfCandidate unit) = true := by
    have rank : Policy.candidateRankIsValid .default = true := rfl
    have size : Text.byteLen unit.text ≤ maxGeneratedTextBytes := (build_checked built).1
    simp [Policy.candidateContractIsValid, selfCandidate, CandidateId.isScopedTo_first, rank, size]
  have metadata : Gates.validateCandidateMetadata unit (selfCandidate unit) = .ok [.pass Gates.unitGate, .pass Gates.candidateGate] := by
    simp only [Gates.validateCandidateMetadata, contract, Bool.true_eq_false, if_false]
    exact if_neg (not_not.mpr rfl)
  have form : maskedForm environment.unicode plan (selfCandidate unit) = .ok plan.maskedSource := masked
  have layout : Gates.validateLayoutConstraints unit unit.text options = none := by
    simp only [Gates.validateLayoutConstraints, unconstrained, Option.map_none]
  have structural := plainTextStructure_self accepted single
  have passed : ((plainTextEngine environment parsed generator claimShadow).semanticGate unit.id unit.text unit.text options).2.1 = true :=
    semanticGate_self unit.id unit.text literal bounded
  intro evaluated
  have through : evaluated = (plainTextEngine environment parsed generator claimShadow).assessMeaning unit (selfCandidate unit) options
      unit.text ([.pass Gates.unitGate, .pass Gates.candidateGate] ++ [.pass Gates.sentinelGate] ++ [Gates.protectedValuesPass plan] ++
        [Gates.annotateStructureGate (.pass Gates.structureGate) .preserved unit.text unit.text]) := by
    simp only [evaluated, assessCandidate, metadata]
    rw [show (plainTextEngine environment parsed generator claimShadow).environment.unicode = environment.unicode from rfl, form]
    simp only [restored, assessRestored, layout]
    rw [show (plainTextEngine environment parsed generator claimShadow).structural.validate unit unit.text = .preserved from structural]
    rfl
  rw [through]
  exact assessMeaning_self _ _ _ _ passed

/-- A unit whose one candidate is its own text is decided without an edit. -/
theorem evaluateUnit_self (accepted : TextAdapter.parse input = .ok parsed) (single : parsed.document.rewriteUnits = [unit])
    (built : ProtectionPlan.build environment.unicode unit.text options.protectedTerms = .ok plan) (literal : options.mode = .literal)
    (unconstrained : options.layout = none) (bounded : Policy.unitScore options.minimumSemanticConfidence = true) :
    ∃ progress, (plainTextEngine environment parsed (providedCandidateGenerator [unit.text] false) claimShadow).evaluateUnit unit options
      .never [] = .ok (.ok progress) ∧ progress.replacement = none := by
  have batch : Policy.candidateBatchReason unit.id [selfCandidate unit] = none := by
    have identity : Policy.candidateBatchIdentityIsValid unit.id [selfCandidate unit] = true := by
      simp [Policy.candidateBatchIdentityIsValid, selfCandidate, CandidateId.isScopedTo_first]
    simp [Policy.candidateBatchReason, Policy.candidateCountReason, identity, maxGeneratedCandidates]
  obtain ⟨eligible, restored⟩ := assessCandidate_self accepted single built literal unconstrained bounded
  exact ⟨_, evaluateUnit_single built rfl batch rfl eligible, if_neg (not_not.mpr restored)⟩

/-- The unit text offered in its own place is accepted, makes no edit, and leaves the bytes as they were. -/
theorem identity_candidate_is_accepted (environment : Environment) {input : Bytes} {parsed : ParsedTextDocument} {unit : RewriteUnit}
    {options : RewriteOptions} {plan : ProtectionPlan} (claimShadow : Option ClaimShadowObserver)
    (accepted : TextAdapter.parse input = .ok parsed) (single : parsed.document.rewriteUnits = [unit])
    (built : ProtectionPlan.build environment.unicode unit.text options.protectedTerms = .ok plan) (literal : options.mode = .literal)
    (unconstrained : options.layout = none) (atomic : options.atomicity = .document)
    (bounded : Policy.unitScore options.minimumSemanticConfidence = true) :
    (∃ outcome, (plainTextEngine environment parsed (providedCandidateGenerator [unit.text] false) claimShadow).run parsed.document options
        .never = .ok outcome ∧ outcome.status = .unchangedIdentical ∧ outcome.edits = []) ∧
      ∃ result, runPlainTextTransaction environment parsed (providedCandidateGenerator [unit.text] false) options claimShadow .never =
        .ok result ∧ result.record.status = .unchangedIdentical ∧ result.output = input := by
  obtain ⟨_, original, _, _, _, describes, _⟩ := TextAdapter.parse_sound accepted
  obtain ⟨progress, decided, unedited⟩ : ∃ progress, (plainTextEngine environment parsed (providedCandidateGenerator [unit.text] false)
      claimShadow).evaluateUnit unit options .never [] = .ok (.ok progress) ∧ progress.replacement = none :=
    evaluateUnit_self accepted single built literal unconstrained bounded
  have optionsValid : Policy.validateRewriteOptions options = .ok () := by
    simp [Policy.validateRewriteOptions, bounded, (build_checked built).2, Policy.layoutBudgetIsValid, unconstrained]
  have ran : (plainTextEngine environment parsed (providedCandidateGenerator [unit.text] false) claimShadow).run parsed.document options
      .never = .ok ⟨.unchangedIdentical, none, [], progress.assessments, [progress.selected]⟩ := by
    simp only [run, optionsValid, describes.valid, atomic, ne_eq, not_true_eq_false, if_false, CancellationToken.never, Bool.false_eq_true,
      single, cons_ne_self, runUnits]
    simp only [CancellationToken.never] at decided
    simp only [decided, finishRun, RunState.record, unedited, Option.map_none, Option.toList_none, append_nil, nil_append, if_true,
      Bool.false_eq_true, if_false]
  refine ⟨⟨_, ran, rfl, rfl⟩, ?_⟩
  have applied : TextAdapter.apply parsed [] = .ok parsed.original := rfl
  have done : runPlainTextTransaction environment parsed (providedCandidateGenerator [unit.text] false) options claimShadow .never =
      .ok (resultOf parsed ⟨.unchangedIdentical, none, [], progress.assessments, [progress.selected]⟩ parsed.original
        .unchangedIdentical none [progress.selected]) := by
    simp only [runPlainTextTransaction, ran, applied]
    rw [finishTransaction_unedited rfl applied]
  exact ⟨_, done, rfl, original⟩

theorem identity_candidate_is_accepted_frozen :
    ∃ parsed unit result, TextAdapter.parse (encode "Acme\u200d 5 Acme".toList) = .ok parsed ∧ parsed.document.rewriteUnits = [unit] ∧
      runPlainTextTransaction ⟨Unicode.ascii, fun _ => 0⟩ parsed (providedCandidateGenerator [unit.text] false)
        { RewriteOptions.default with mode := .literal, protectedTerms := ["Acme".toList] } none .never = .ok result ∧
      result.record.status = .unchangedIdentical ∧ result.output = encode "Acme\u200d 5 Acme".toList := by
  obtain ⟨parsed, accepted, describes⟩ := @TextAdapter.parse_complete "Acme\u200d 5 Acme".toList false (by decide +kernel) (by decide +kernel)
  have texts := describes.units
  rw [if_neg (by decide +kernel)] at texts
  obtain ⟨unit, single, text⟩ := map_eq_singleton_iff.mp texts
  have computed : (ProtectionPlan.build Unicode.ascii "Acme\u200d 5 Acme".toList ["Acme".toList]).toOption.isSome = true := rfl
  cases built : ProtectionPlan.build Unicode.ascii "Acme\u200d 5 Acme".toList ["Acme".toList] with
  | error fault =>
    rw [built] at computed
    cases computed
  | ok plan =>
    rw [← text] at built
    obtain ⟨_, result, done, status, output⟩ := @identity_candidate_is_accepted ⟨Unicode.ascii, fun _ => 0⟩ _ parsed unit
      { RewriteOptions.default with mode := .literal, protectedTerms := ["Acme".toList] } plan none accepted single built rfl rfl rfl
      rfl
    exact ⟨parsed, unit, result, accepted, single, done, status, output⟩

end CandidateCheck

end Retonr
