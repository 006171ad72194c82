import Retonr.Adapter.TextAdapter
import Retonr.Proofs.EngineRuns
import Retonr.Proofs.GateRecords
import Retonr.Proofs.Masking

/-! The records a run reports satisfy the engine's own evidence contract, except where the
evaluator answers that its gate does not apply: the candidate is then rejected although no
retained gate rejects it. -/

namespace Retonr
open Text Gates List Retonr.Except

/-- Gates retained for a candidate that has not been rejected. -/
structure Retained (count : Nat) (gates : List GateResult) : Prop where
  length : gates.length = count
  valid : ∀ gate ∈ gates, gate.validate = .ok ()
  passing : ∀ gate ∈ gates, gate.status = .pass

namespace Retained

variable {count : Nat} {gates : List GateResult}

theorem append (retained : Retained count gates) {gate : GateResult} (valid : gate.validate = .ok ()) (passing : gate.status = .pass) :
    Retained (count + 1) (gates ++ [gate]) where
  length := by simp [retained.length]
  valid := forall_mem_append.mpr ⟨retained.valid, forall_mem_singleton.mpr valid⟩
  passing := forall_mem_append.mpr ⟨retained.passing, forall_mem_singleton.mpr passing⟩

/-- With informational gates after it, only the last error gate decides whether the hard gates pass. -/
theorem hardGatesPass_append (retained : Retained count gates) {gate : GateResult} (hard : gate.severity = .error)
    {shadow : List GateResult} (info : ∀ other ∈ shadow, other.severity = .info) :
    CandidateAssessment.hardGatesPass (gates ++ [gate] ++ shadow) = (gate.status == .pass || gate.status == .notApplicable) := by
  have before : (gates.all fun gate => gate.severity != .error || gate.status == .pass || gate.status == .notApplicable) = true := by
    apply all_eq_true.mpr
    intro other member
    simp [retained.passing other member]
  have after : (shadow.all fun gate => gate.severity != .error || gate.status == .pass || gate.status == .notApplicable) = true := by
    apply all_eq_true.mpr
    intro other member
    simp [info other member]
  simp [CandidateAssessment.hardGatesPass, all_append, before, after, hard]

/-- An assessment whose last error gate is valid passes its contract exactly when it is
eligible for a passing gate and ineligible for a failing one. -/
theorem assessment_valid_iff (retained : Retained count gates) (few : count ≤ 8) {gate : GateResult}
    (valid : gate.validate = .ok ()) (hard : gate.severity = .error) {shadow : List GateResult} (short : shadow.length ≤ 1)
    (info : ∀ other ∈ shadow, other.severity = .info ∧ other.validate = .ok ()) {candidateId : CandidateId} {unitId : RewriteUnitId}
    (inScope : candidateId.isScopedTo unitId = true) (eligible : Bool) :
    CandidateAssessment.validate ⟨candidateId, unitId, eligible, gates ++ [gate] ++ shadow⟩ = .ok () ↔
      eligible = (gate.status == .pass || gate.status == .notApplicable) := by
  have each : (gates ++ [gate] ++ shadow).forM GateResult.validate = .ok () := by
    rw [forM_eq_ok, forall_mem_append, forall_mem_append]
    exact ⟨⟨retained.valid, forall_mem_singleton.mpr valid⟩, fun other added => (info other added).2⟩
  have size : ¬ maxGatesPerCandidate < (gates ++ [gate] ++ shadow).length := by
    simp only [length_append, length_singleton, retained.length, maxGatesPerCandidate]
    omega
  simp only [CandidateAssessment.validate]
  rw [if_neg (by simp [inScope]), if_neg size, each, retained.hardGatesPass_append hard fun other member => (info other member).1]
  simp [bind, Except.bind]

theorem rejected_valid (retained : Retained count gates) (few : count ≤ 8) {gate : GateResult} (valid : gate.validate = .ok ())
    (hard : gate.severity = .error) (rejects : gate.status = .fail ∨ gate.status = .uncertain) (shadow : List GateResult)
    (short : shadow.length ≤ 1) (info : ∀ other ∈ shadow, other.severity = .info ∧ other.validate = .ok ())
    {candidate : GeneratedCandidate} {unitId : RewriteUnitId} (inScope : candidate.id.isScopedTo unitId = true) (restored : Text)
    (reason : ReasonCode) : (ineligible candidate unitId restored (gates ++ [gate] ++ shadow) reason).assessment.validate = .ok () := by
  apply (retained.assessment_valid_iff few valid hard short info inScope false).mpr
  rcases rejects with rejected | rejected <;> simp [rejected]

end Retained

namespace RewriteEngine

variable {engine : RewriteEngine} {options : RewriteOptions} {unit : RewriteUnit} {candidate : GeneratedCandidate}

/-- The candidate passes every gate before the semantic one, with this restored text. -/
structure Reaches (engine : RewriteEngine) (options : RewriteOptions) (unit : RewriteUnit) (plan : ProtectionPlan)
    (candidate : GeneratedCandidate) (restored : Text) : Prop where
  targets : candidate.unitId = unit.id
  contract : Policy.candidateContractIsValid candidate = true
  restores : restoredForm engine.environment.unicode plan candidate = .ok restored
  preserved : engine.structural.validate unit restored = .preserved
  fits : ∀ gate reason, validateLayoutConstraints unit restored options = some (gate, reason) → gate.status = .pass

/-- The evaluator answers, within its contract, that it does not apply to the restored text. -/
structure Declines (engine : RewriteEngine) (options : RewriteOptions) (unit : RewriteUnit) (restored : Text) : Prop where
  status : (engine.semantic.evaluate unit.text restored options.mode).status = .notApplicable
  valid : (engine.semantic.evaluate unit.text restored options.mode).validate = .ok ()
  bound : Semantic.evidenceMatches (engine.semantic.evaluate unit.text restored options.mode) unit.id unit.text restored = true
  version : validateVersion engine.semantic.id = .ok ()

theorem semanticEvidence_valid {evidence : SemanticEvidence} (valid : evidence.validate = .ok ()) :
    (semanticEvidence evidence).validate = .ok () := by
  obtain ⟨code, details⟩ := evidence
  have wording : validateCode code.asStr = .ok () ∧ ((semanticMessage code).isEmpty ||
      maxGateEvidenceMessageBytes < byteLen (semanticMessage code) ||
      (semanticMessage code).any TextSafety.isControl) = false := by
    cases code <;> exact ⟨rfl, rfl⟩
  refine (GateEvidence.validate_iff _).mpr ⟨wording.1, wording.2, ?_⟩
  cases details with
  | none => rfl
  | some details =>
    obtain ⟨comparison⟩ := details
    have checked : comparison.validate.mapError EvidenceContractError.invalidClaimComparison = .ok () := by
      cases code <;> first | cases valid | exact (bind_eq_ok.mp valid).choose_spec.1
    exact checked

theorem semanticAssessment_cases {answer : SemanticAssessment} (valid : answer.validate = .ok ()) :
    validateConfidence answer.confidence = .ok () ∧ answer.evidence.length ≤ maxSemanticEvidenceItems ∧
      ∀ evidence ∈ answer.evidence, evidence.validate = .ok () := by
  obtain ⟨_, confidence, rest⟩ := bind_eq_ok.mp valid
  split at rest
  · cases rest
  next few =>
    obtain ⟨_, each, _⟩ := bind_eq_ok.mp rest
    exact ⟨confidence, Nat.le_of_not_lt few, forM_eq_ok.mp each⟩

private theorem semanticCode_valid : validateCode Gates.semanticGate = .ok () := rfl

private theorem invalidSemanticGate_valid : invalidSemanticGate.1.validate = .ok () := rfl

/-- A gate built from a valid answer is valid as soon as the evaluator's identity is a version. -/
private theorem answerGate_valid {answer : SemanticAssessment} (valid : answer.validate = .ok ())
    (version : validateVersion engine.semantic.id = .ok ()) (status : GateStatus) :
    GateResult.validate ⟨Gates.semanticGate, engine.semantic.id, status, .error, answer.evidence.map semanticEvidence,
      answer.confidence⟩ = .ok () := by
  obtain ⟨confidence, few, each⟩ := semanticAssessment_cases valid
  refine (GateResult.validate_iff _).mpr ⟨semanticCode_valid, version, confidence, by simpa using few, ?_⟩
  intro evidence member
  obtain ⟨finding, inside, rfl⟩ := mem_map.mp member
  exact semanticEvidence_valid (each finding inside)

/-- The gate retained for a valid answer disagrees with the decision exactly when the answer is not applicable. -/
theorem retainedSemanticGate_cases {answer : SemanticAssessment} (valid : answer.validate = .ok ()) (source restored : Text)
    {gate : GateResult} {passed : Bool} {reason : ReasonCode}
    (retained : engine.retainedSemanticGate source restored options answer = (gate, passed, reason)) :
    gate.validate = .ok () ∧ gate.severity = .error ∧ (passed = (gate.status == .pass || gate.status == .notApplicable) ↔
        ¬(answer.status = .notApplicable ∧ validateVersion engine.semantic.id = .ok ())) := by
  simp only [retainedSemanticGate] at retained
  generalize confident : (answer.confidence.any fun value => Binary32.le options.minimumSemanticConfidence value) = confidencePassed
    at retained
  generalize shape : (if answer.status = .pass ∧ confidencePassed = false then GateStatus.uncertain else answer.status) = status
    at retained
  obtain ⟨located, kept, same⟩ : ∃ located, KeepsVerdict _ located ∧ located = _ :=
    ⟨_, attachIf_keeps
      ⟨Gates.semanticGate, engine.semantic.id, status, .error, answer.evidence.map semanticEvidence, answer.confidence⟩
      (SpanReport.literalTokenDetails_valid engine.environment.unicode source restored)
      (!(answer.status == .pass && confidencePassed) &&
        (answer.evidence.map semanticEvidence).any (·.code == "literal_tokens_changed".toList)), rfl⟩
  rw [← same] at retained
  split at retained
  next accepted =>
    cases retained
    have version : validateVersion engine.semantic.id = .ok () := by
      have checked := ((GateResult.validate_iff _).mp accepted).2.1
      rwa [kept.version] at checked
    refine ⟨accepted, kept.severity, ?_⟩
    rw [kept.status, ← shape]
    cases answer.status <;> cases confidencePassed <;> simp [version]
  next refused =>
    cases retained
    refine ⟨invalidSemanticGate_valid, rfl, ?_⟩
    have unversioned : validateVersion engine.semantic.id ≠ .ok () := fun version =>
      refused (kept.valid (answerGate_valid valid version status))
    simp [unversioned]

/-- The semantic gate disagrees with the decision exactly when the evaluator declines. -/
theorem semanticGate_cases (unit : RewriteUnit) (restored : Text) {gate : GateResult} {passed : Bool} {reason : ReasonCode}
    (judged : engine.semanticGate unit.id unit.text restored options = (gate, passed, reason)) :
    gate.validate = .ok () ∧ gate.severity = .error ∧
      (passed = (gate.status == .pass || gate.status == .notApplicable) ↔ ¬ engine.Declines options unit restored) := by
  simp only [semanticGate] at judged
  split at judged
  next malformed =>
    cases judged
    refine ⟨invalidSemanticGate_valid, rfl, ?_⟩
    have accepted : ¬ engine.Declines options unit restored := by
      intro declines
      rcases malformed with invalid | unbound
      · exact invalid declines.valid
      · simp [declines.bound] at unbound
    simp [accepted]
  next wellFormed =>
    simp only [not_or, not_not, Bool.not_eq_false] at wellFormed
    obtain ⟨valid, bound⟩ := wellFormed
    obtain ⟨checked, hard, agrees⟩ := retainedSemanticGate_cases valid unit.text restored judged
    refine ⟨checked, hard, agrees.trans (not_congr ?_)⟩
    exact ⟨fun ⟨status, version⟩ => ⟨status, valid, bound, version⟩, fun declines => ⟨declines.status, declines.version⟩⟩

variable {count : Nat} {gates : List GateResult}

theorem assessMeaning_valid_iff (retained : Retained count gates) (few : count ≤ 8) (targets : candidate.unitId = unit.id)
    (inScope : candidate.id.isScopedTo unit.id = true) (restored : Text) :
    (engine.assessMeaning unit candidate options restored gates).assessment.validate = .ok () ↔ ¬ engine.Declines options unit restored := by
  rcases judged : engine.semanticGate unit.id unit.text restored options with ⟨gate, passed, reason⟩
  obtain ⟨valid, hard, agrees⟩ := semanticGate_cases unit restored judged
  obtain ⟨shadow, attached, short, info⟩ := attachClaimShadow_info engine unit.id unit.text restored
  simp only [assessMeaning, judged, attached]
  rw [← agrees]
  split
  next rejected =>
    rw [rejected]
    exact retained.assessment_valid_iff few valid hard short info inScope false
  next accepted =>
    simp only [Bool.not_eq_false] at accepted
    rw [accepted, targets]
    exact retained.assessment_valid_iff few valid hard short info inScope true

theorem assessRestored_valid_iff (retained : Retained count gates) (few : count ≤ 6) (targets : candidate.unitId = unit.id)
    (inScope : candidate.id.isScopedTo unit.id = true) (restored : Text) :
    (engine.assessRestored unit candidate options restored gates).assessment.validate = .ok () ↔
      ¬(engine.structural.validate unit restored = .preserved ∧
        (∀ gate reason, validateLayoutConstraints unit restored options = some (gate, reason) → gate.status = .pass) ∧
        engine.Declines options unit restored) := by
  have kept := annotateStructureGate_keeps (retainedStructureGate (engine.structural.validate unit restored)).1
    (engine.structural.validate unit restored) unit.text restored
  have checked := kept.valid (retainedStructureGate_valid _)
  obtain ⟨shadow, attached, short, info⟩ := attachClaimShadow_info engine unit.id unit.text restored
  simp only [assessRestored]
  split
  next altered =>
    refine iff_of_true ?_ fun reached => altered reached.1
    rw [attached]
    obtain ⟨hard, failed⟩ := retainedStructureGate_rejects altered
    exact retained.rejected_valid (by omega) checked (kept.severity.trans hard) (Or.inl (kept.status.trans failed)) shadow short info
      inScope restored _
  next preserved =>
    simp only [ne_eq, not_not] at preserved
    rw [preserved] at checked ⊢
    have structural := retained.append checked rfl
    split
    next unconstrained =>
      rw [assessMeaning_valid_iff structural (by omega) targets inScope restored]
      simp [unconstrained]
    next layout layoutReason constrained =>
      obtain ⟨valid, hard, passes | fails⟩ := validateLayoutConstraints_valid constrained
      · rw [if_neg (by simp [passes]), assessMeaning_valid_iff (structural.append valid passes) (by omega) targets inScope restored]
        simp [constrained, passes]
      · rw [if_pos (by simp [fails])]
        refine iff_of_true ?_ ?_
        · simpa using structural.rejected_valid (by omega) valid hard (Or.inl fails) [] (by simp) (by simp) inScope restored
            layoutReason
        · rintro ⟨_, fits, _⟩
          simp [fits layout layoutReason constrained] at fails

private theorem metadata_retained : Retained 2 [GateResult.pass unitGate, GateResult.pass candidateGate] where
  length := rfl
  valid := by
    intro gate member
    rcases mem_pair.mp member with rfl | rfl <;> exact GateResult.pass_valid rfl
  passing := by
    intro gate member
    rcases mem_pair.mp member with rfl | rfl <;> rfl

/-- The metadata gates either retain two passing gates or leave a valid rejection. -/
theorem validateCandidateMetadata_cases (inScope : candidate.id.isScopedTo unit.id = true) :
    (validateCandidateMetadata unit candidate = .ok [.pass unitGate, .pass candidateGate] ∧ candidate.unitId = unit.id ∧
        Policy.candidateContractIsValid candidate = true) ∨
      ∃ rejected, validateCandidateMetadata unit candidate = .error rejected ∧ rejected.assessment.validate = .ok () ∧
        ¬(candidate.unitId = unit.id ∧ Policy.candidateContractIsValid candidate = true) := by
  have named : Retained 1 [GateResult.pass unitGate] :=
    ⟨rfl, by simpa using GateResult.pass_valid rfl, by simp [GateResult.pass]⟩
  have fresh : Retained 0 [] := ⟨rfl, by simp, by simp⟩
  simp only [validateCandidateMetadata]
  split
  next foreign =>
    refine Or.inr ⟨_, rfl, ?_, fun both => foreign both.1⟩
    exact fresh.rejected_valid (by omega) (GateResult.fail_valid rfl rfl) rfl (Or.inl rfl) [] (by simp)
      (by simp) inScope [] _
  next own =>
    simp only [ne_eq, not_not] at own
    split
    next broken =>
      refine Or.inr ⟨_, rfl, ?_, fun both => by simp [broken] at both⟩
      exact named.rejected_valid (by omega) (GateResult.fail_valid rfl rfl) rfl (Or.inl rfl) []
        (by simp) (by simp) inScope [] _
    next kept =>
      simp only [Bool.not_eq_false] at kept
      exact Or.inl ⟨rfl, own, kept⟩

private theorem protectionFailure_rejects (gateId : Text) (fault : ProtectionError) :
    (protectionFailure gateId fault).severity = .error ∧ (protectionFailure gateId fault).status = .fail := ⟨rfl, rfl⟩

theorem rejectUnprotected_valid (retained : Retained count gates) (few : count ≤ 8)
    (inScope : candidate.id.isScopedTo unit.id = true) (unicode : Unicode) (fault : ProtectionError) :
    (rejectUnprotected unicode candidate unit options fault gates).assessment.validate = .ok () := by
  have valid : (protectionFailure sentinelGate fault).validate = .ok () := protectionFailure_valid rfl fault
  obtain ⟨hard, failed⟩ := protectionFailure_rejects sentinelGate fault
  simp only [rejectUnprotected]
  split
  · have kept := attachSpanDetails_keeps (protectionFailure sentinelGate fault)
      (SpanReport.protectionDetails_valid unicode unit.text candidate.text options.protectedTerms)
    simpa using retained.rejected_valid few (kept.valid valid) (kept.severity.trans hard) (Or.inl (kept.status.trans failed)) []
      (by simp) (by simp) inScope [] (protectionReason fault)
  · simpa using retained.rejected_valid few valid hard (Or.inl failed) [] (by simp) (by simp) inScope [] (protectionReason fault)

/-- The record for a candidate in scope is valid unless the evaluator declines a text that reaches it. -/
theorem assessCandidate_valid_iff {plan : ProtectionPlan} (few : plan.values.length ≤ maxProtectedOccurrences)
    (inScope : candidate.id.isScopedTo unit.id = true) : (engine.assessCandidate unit candidate plan options).assessment.validate = .ok () ↔
      ¬ ∃ restored, engine.Reaches options unit plan candidate restored ∧ engine.Declines options unit restored := by
  simp only [assessCandidate]
  rcases validateCandidateMetadata_cases inScope with ⟨passed, targets, contract⟩ | ⟨rejected, failed, valid, foreign⟩
  · simp only [passed]
    have issued : (GateResult.pass sentinelGate).validate = .ok () := GateResult.pass_valid rfl
    have sentinel := metadata_retained.append issued rfl
    split
    next fault unmasked =>
      refine iff_of_true (rejectUnprotected_valid metadata_retained (by omega) inScope _ fault) ?_
      rintro ⟨restored, reaches, _⟩
      have restores := reaches.restores
      rw [restoredForm, unmasked] at restores
      cases restores
    next masked asMasked =>
      split
      next fault lost =>
        refine iff_of_true ?_ ?_
        · obtain ⟨hard, rejects⟩ := protectionFailure_rejects protectedGate fault
          simpa using sentinel.rejected_valid (by omega) (protectionFailure_valid rfl fault) hard (Or.inl rejects) []
            (by simp) (by simp) inScope [] (protectionReason fault)
        · rintro ⟨restored, reaches, _⟩
          have restores := reaches.restores
          rw [restoredForm, asMasked, ok_bind, lost] at restores
          cases restores
      next restored restores =>
        rw [assessRestored_valid_iff (sentinel.append (protectedValuesPass_valid few) rfl) (by omega) targets inScope restored]
        refine not_congr ⟨?_, ?_⟩
        · rintro ⟨preserved, fits, declines⟩
          exact ⟨restored, ⟨targets, contract, by rw [restoredForm, asMasked]; exact restores, preserved, fits⟩, declines⟩
        · rintro ⟨other, reaches, declines⟩
          have same := reaches.restores
          rw [restoredForm, asMasked, ok_bind, restores] at same
          cases same
          exact ⟨reaches.preserved, reaches.fits, declines⟩
  · simp only [failed]
    refine iff_of_true valid ?_
    rintro ⟨restored, reaches, _⟩
    exact foreign ⟨reaches.targets, reaches.contract⟩

theorem Offered.facts {plan : ProtectionPlan} {candidates : List GeneratedCandidate}
    (offered : engine.Offered options unit plan candidates candidate) :
    candidate.unitId = unit.id ∧ candidate.id.isScopedTo unit.id = true ∧ plan.values.length ≤ maxProtectedOccurrences := by
  have identities : Policy.candidateBatchIdentityIsValid unit.id candidates = true := by
    have accepted := offered.accepted
    simp only [Policy.candidateBatchReason, Option.or_eq_none_iff] at accepted
    by_contra invalid
    simp [invalid] at accepted
  simp only [Policy.candidateBatchIdentityIsValid, Bool.and_eq_true, all_eq_true, beq_iff_eq] at identities
  obtain ⟨targets, inScope⟩ := identities.1 candidate offered.member
  exact ⟨targets, inScope, (build_cases offered.built).1.bounded⟩

/-- Every record of a run was made for an offered candidate and is valid exactly when the
evaluator does not decline the text that candidate brings to it, so a run in which no
offered candidate is declined reports valid records only. -/
theorem records_valid_unless_declined {document : DocumentIr} {cancellation : CancellationToken} {outcome : EngineOutcome}
    (ran : engine.run document options cancellation = .ok outcome) :
    (∀ assessment ∈ outcome.assessments, ∃ unit ∈ document.rewriteUnits, ∃ plan candidates candidate,
      engine.Offered options unit plan candidates candidate ∧ assessment = (engine.assessCandidate unit candidate plan options).assessment ∧
      (assessment.validate = .ok () ↔
        ¬ ∃ restored, engine.Reaches options unit plan candidate restored ∧ engine.Declines options unit restored)) ∧
    ((∀ unit ∈ document.rewriteUnits, ∀ plan candidates candidate, engine.Offered options unit plan candidates candidate →
        ∀ restored, engine.Reaches options unit plan candidate restored → ¬ engine.Declines options unit restored) →
      ∀ assessment ∈ outcome.assessments, assessment.validate = .ok ()) := by
  have each : ∀ assessment ∈ outcome.assessments, ∃ unit ∈ document.rewriteUnits, ∃ plan candidates candidate,
      engine.Offered options unit plan candidates candidate ∧
      assessment = (engine.assessCandidate unit candidate plan options).assessment ∧
      (assessment.validate = .ok () ↔
        ¬ ∃ restored, engine.Reaches options unit plan candidate restored ∧ engine.Declines options unit restored) := by
    intro assessment member
    obtain ⟨unit, inside, plan, candidates, candidate, offered, rfl⟩ := (run_finished ran).2.2.recorded assessment member
    obtain ⟨_, inScope, few⟩ := offered.facts
    exact ⟨unit, inside, plan, candidates, candidate, offered, rfl, assessCandidate_valid_iff few inScope⟩
  refine ⟨each, ?_⟩
  intro undeclined assessment member
  obtain ⟨unit, inside, plan, candidates, candidate, offered, _, valid⟩ := each assessment member
  apply valid.mpr
  rintro ⟨restored, reaches, declines⟩
  exact undeclined unit inside plan candidates candidate offered restored reaches declines

theorem literalSemanticEvaluator_applies (unicode : Unicode) (source restored : Text) (mode : RewriteMode) :
    ((Semantic.literalSemanticEvaluator unicode).evaluate source restored mode).status ≠ .notApplicable := by
  rw [Semantic.literalSemanticEvaluator_evaluate]
  split
  · exact nofun
  split
  · exact nofun
  · exact nofun

/-- An engine over one provided candidate, with a structure gate that accepts everything. -/
def providedEngine (candidate : Text) (semantic : SemanticEvaluator) : RewriteEngine where
  environment := ⟨Unicode.ascii, fun _ => 0⟩
  generator := providedCandidateGenerator [candidate] false
  semantic
  structural := ⟨fun _ _ => .preserved⟩
  claimShadow := none

/-- An evaluator that reports no finding and that its gate does not apply. -/
def decliningEvaluator : SemanticEvaluator where
  id := "declining-v1".toList
  evaluate _ _ _ := ⟨.notApplicable, none, []⟩

theorem records_valid_unless_declined_literal : ∃ parsed outcome, TextAdapter.parse (encode ['a']) = .ok parsed ∧
      (providedEngine ['a', '!'] (Semantic.literalSemanticEvaluator Unicode.ascii)).run parsed.document .default .never = .ok outcome ∧
      outcome.assessments.length = 1 ∧ ∀ assessment ∈ outcome.assessments, assessment.validate = .ok () := by
  have parses : (TextAdapter.parse (encode ['a'])).toOption.map (fun parsed =>
      ((providedEngine ['a', '!'] (Semantic.literalSemanticEvaluator Unicode.ascii)).run parsed.document .default .never).toOption.map
        (·.assessments.length)) = some (some 1) := by
    decide +kernel
  obtain ⟨parsed, parsedAs, runs⟩ := map_toOption_eq_some.mp parses
  obtain ⟨outcome, ran, single⟩ := map_toOption_eq_some.mp runs
  refine ⟨parsed, outcome, parsedAs, ran, single, (records_valid_unless_declined ran).2 ?_⟩
  intro unit _ plan candidates candidate _ restored _ declines
  exact literalSemanticEvaluator_applies _ _ _ _ declines.status

theorem declined_record_is_invalid : (TextAdapter.parse (encode ['a'])).toOption.map (fun parsed =>
      ((providedEngine ['b'] decliningEvaluator).run parsed.document .default .never).toOption.map
        (·.assessments.map CandidateAssessment.validate)) = some (some [.error .inconsistentEligibility]) := by
  decide +kernel

end RewriteEngine

end Retonr
