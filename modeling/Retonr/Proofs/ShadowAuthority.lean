import Retonr.Proofs.GateRecords
import Retonr.Proofs.TwoRuns

/-! The claim-shadow observer has no authority: a run with an observer decides as the run
without it, and its records only gain informational gates. -/

namespace Retonr.RewriteEngine
open Text Gates Retonr.Except

/-- The same record, up to informational gates at its end. -/
structure AddsInfo (plain observed : CandidateAssessment) : Prop where
  candidateId : plain.candidateId = observed.candidateId
  unitId : plain.unitId = observed.unitId
  eligible : plain.eligible = observed.eligible
  gates : ∃ shadow : List GateResult, observed.gates = plain.gates ++ shadow ∧ ∀ gate ∈ shadow, gate.severity = .info

theorem AddsInfo.refl (assessment : CandidateAssessment) : AddsInfo assessment assessment := ⟨rfl, rfl, rfl, [], by simp, by simp⟩

structure SameEvaluation (plain observed : EvaluatedCandidate) : Prop where
  assessment : AddsInfo plain.assessment observed.assessment
  candidate : plain.candidate = observed.candidate
  reason : plain.reason = observed.reason

theorem SameEvaluation.refl (evaluated : EvaluatedCandidate) : SameEvaluation evaluated evaluated := ⟨.refl _, rfl, rfl⟩

/-- The engine with its observer, if any, taken away. -/
def withoutClaimShadow (engine : RewriteEngine) : RewriteEngine := { engine with claimShadow := none }

variable (engine : RewriteEngine) (unit : RewriteUnit) (options : RewriteOptions) (cancellation : CancellationToken)

theorem attachClaimShadow_without (unitId : RewriteUnitId) (source restored : Text) (gates : List GateResult) :
    engine.withoutClaimShadow.attachClaimShadow unitId source restored gates = gates := List.append_nil gates

theorem assessMeaning_observed (candidate : GeneratedCandidate) (restored : Text) (gates : List GateResult) :
    SameEvaluation (engine.withoutClaimShadow.assessMeaning unit candidate options restored gates)
      (engine.assessMeaning unit candidate options restored gates) := by
  obtain ⟨shadow, attached, _, info⟩ := attachClaimShadow_info engine unit.id unit.text restored
  have judged : engine.withoutClaimShadow.semanticGate unit.id unit.text restored options =
      engine.semanticGate unit.id unit.text restored options := rfl
  simp only [assessMeaning, attachClaimShadow_without, attached, judged]
  split
  · exact ⟨⟨rfl, rfl, rfl, shadow, rfl, fun gate member => (info gate member).1⟩, rfl, rfl⟩
  · exact ⟨⟨rfl, rfl, rfl, shadow, rfl, fun gate member => (info gate member).1⟩, rfl, rfl⟩

theorem assessRestored_observed (candidate : GeneratedCandidate) (restored : Text) (gates : List GateResult) :
    SameEvaluation (engine.withoutClaimShadow.assessRestored unit candidate options restored gates)
      (engine.assessRestored unit candidate options restored gates) := by
  obtain ⟨shadow, attached, _, info⟩ := attachClaimShadow_info engine unit.id unit.text restored
  have checked : engine.withoutClaimShadow.structural = engine.structural := rfl
  simp only [assessRestored, attachClaimShadow_without, attached, checked]
  split
  · exact ⟨⟨rfl, rfl, rfl, shadow, rfl, fun gate member => (info gate member).1⟩, rfl, rfl⟩
  split
  · exact engine.assessMeaning_observed unit options candidate restored _
  split
  · exact .refl _
  · exact engine.assessMeaning_observed unit options candidate restored _

theorem assessCandidate_observed (candidate : GeneratedCandidate) (plan : ProtectionPlan) :
    SameEvaluation (engine.withoutClaimShadow.assessCandidate unit candidate plan options)
      (engine.assessCandidate unit candidate plan options) := by
  have environment : engine.withoutClaimShadow.environment = engine.environment := rfl
  simp only [assessCandidate, environment]
  split
  · exact .refl _
  split
  · exact .refl _
  split
  · exact .refl _
  · exact engine.assessRestored_observed unit options candidate _ _

structure SameBatch (plain observed : BatchState) : Prop where
  eligible : plain.eligible = observed.eligible
  reason : plain.reason = observed.reason
  recorded : List.Forall₂ AddsInfo plain.assessments observed.assessments

theorem SameBatch.record {plain observed : BatchState} (same : SameBatch plain observed) {left right : EvaluatedCandidate}
    (evaluated : SameEvaluation left right) : SameBatch (plain.record left) (observed.record right) where
  eligible := by simp only [BatchState.record, same.eligible, evaluated.assessment.eligible, evaluated.candidate]
  reason := by simp only [BatchState.record, same.reason, evaluated.assessment.eligible, evaluated.reason]
  recorded := List.rel_append same.recorded (.cons evaluated.assessment .nil)

theorem assessBatch_observed (plan : ProtectionPlan) (candidates : List GeneratedCandidate) {plain observed : BatchState}
    (same : SameBatch plain observed) : Related (SameDecision (List.Forall₂ AddsInfo)) SameBatch
      (engine.withoutClaimShadow.assessBatch unit plan options cancellation candidates plain)
      (engine.assessBatch unit plan options cancellation candidates observed) := by
  induction candidates generalizing plain observed with
  | nil => exact .ok same
  | cons candidate candidates ih =>
    have recorded := same.record (engine.assessCandidate_observed unit options candidate plan)
    simp only [assessBatch]
    split
    · exact .error (.abstained _ recorded.recorded)
    · exact ih recorded

theorem evaluateBatch_observed (plan : ProtectionPlan) (candidates : List GeneratedCandidate) {left right : List CandidateAssessment}
    (related : List.Forall₂ AddsInfo left right) : Related (SameDecision (List.Forall₂ AddsInfo)) (SameProgress (List.Forall₂ AddsInfo))
      (engine.withoutClaimShadow.evaluateBatch unit plan options cancellation candidates left)
      (engine.evaluateBatch unit plan options cancellation candidates right) := by
  have started : SameBatch ⟨[], none, left⟩ ⟨[], none, right⟩ := ⟨rfl, rfl, related⟩
  have assessed := engine.assessBatch_observed unit options cancellation plan candidates started
  simp only [evaluateBatch]
  split
  · exact .error (.abstained _ related)
  split
  · exact .error (.abstained _ related)
  generalize engine.withoutClaimShadow.assessBatch unit plan options cancellation candidates ⟨[], none, left⟩ = answer at assessed ⊢
  generalize engine.assessBatch unit plan options cancellation candidates ⟨[], none, right⟩ = other at assessed ⊢
  cases assessed with
  | error stopped => exact .error stopped
  | ok same =>
    simp only [ok_bind, decideUnit, same.eligible, same.reason]
    split
    · exact .error (.abstained _ same.recorded)
    · exact .ok ⟨rfl, rfl, same.recorded⟩

/-- Taking the observer away changes no decision of a run. -/
theorem run_without_shadow (document : DocumentIr) :
    Related Eq (SameDecision (List.Forall₂ AddsInfo)) (engine.withoutClaimShadow.run document options cancellation)
      (engine.run document options cancellation) := by
  apply run_related .nil
  intro unit _ left right related
  have environment : engine.withoutClaimShadow.environment = engine.environment := rfl
  refine evaluateUnit_related Eq environment ?_ ?_ related
  · intro request
    change Related Eq Eq (engine.generator.generate request) (engine.generator.generate request)
    cases engine.generator.generate request with
    | error fault => exact .error rfl
    | ok candidates => exact .ok rfl
  · rintro plan candidates _ left right rfl related
    exact engine.evaluateBatch_observed unit options cancellation plan candidates related

/-- For every observer, the observed run fails as the plain one does, or both report the same
status, reason, edits and selection, with records that agree up to added informational gates. -/
theorem claim_shadow_has_no_authority (engine : RewriteEngine) (observer : ClaimShadowObserver) (document : DocumentIr)
    (options : RewriteOptions) (cancellation : CancellationToken) :
    Related Eq (SameDecision (List.Forall₂ AddsInfo)) (engine.withoutClaimShadow.run document options cancellation)
      ((engine.withClaimShadow observer).run document options cancellation) := by
  have same : (engine.withClaimShadow observer).withoutClaimShadow = engine.withoutClaimShadow := rfl
  rw [← same]
  exact (engine.withClaimShadow observer).run_without_shadow options cancellation document

end Retonr.RewriteEngine
