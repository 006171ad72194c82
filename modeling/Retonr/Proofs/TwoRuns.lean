import Retonr.Engine.Engine

/-! Two engine runs side by side. When the batches of two engines are decided alike, so are
whole documents, up to a relation between the assessment records. -/

namespace Retonr.RewriteEngine
open Text Retonr.Except

/-- The outcomes agree on everything but the records, which are related. -/
structure SameDecision (records : List CandidateAssessment → List CandidateAssessment → Prop) (left right : EngineOutcome) : Prop where
  status : left.status = right.status
  reason : left.reason = right.reason
  edits : left.edits = right.edits
  selected : left.selectedCandidates = right.selectedCandidates
  recorded : records left.assessments right.assessments

structure SameProgress (records : List CandidateAssessment → List CandidateAssessment → Prop) (left right : UnitProgress) : Prop where
  selected : left.selected = right.selected
  replacement : left.replacement = right.replacement
  recorded : records left.assessments right.assessments

structure SameState (records : List CandidateAssessment → List CandidateAssessment → Prop) (left right : RunState) : Prop where
  edits : left.edits = right.edits
  selected : left.selectedCandidates = right.selectedCandidates
  recorded : records left.assessments right.assessments

variable {records : List CandidateAssessment → List CandidateAssessment → Prop} {first second : RewriteEngine}
  {options : RewriteOptions} {cancellation : CancellationToken}

theorem SameDecision.abstained (reason : ReasonCode) {left right : List CandidateAssessment} (related : records left right) :
    SameDecision records (.abstained reason left) (.abstained reason right) := ⟨rfl, rfl, rfl, rfl, related⟩

/-- Two engines decide one unit alike when they decide the batches they were handed alike. -/
theorem evaluateUnit_related (batches : List GeneratedCandidate → List GeneratedCandidate → Prop)
    (environment : first.environment = second.environment)
    (generators : ∀ request, Related Eq batches (first.generator.generate request) (second.generator.generate request)) {unit : RewriteUnit}
    (decides : ∀ plan candidates others left right, batches candidates others → records left right →
      Related (SameDecision records) (SameProgress records) (first.evaluateBatch unit plan options cancellation candidates left)
        (second.evaluateBatch unit plan options cancellation others right))
    {left right : List CandidateAssessment} (related : records left right) : Related Eq (Related (SameDecision records) (SameProgress records))
      (first.evaluateUnit unit options cancellation left) (second.evaluateUnit unit options cancellation right) := by
  simp only [evaluateUnit, environment]
  split
  · exact .ok (.error (.abstained _ related))
  cases ProtectionPlan.build second.environment.unicode unit.text options.protectedTerms with
  | error fault =>
    cases fault
    case reservedTokenInSource => exact .ok (.error (.abstained _ related))
    case ambiguousSurfaceMapping => exact .ok (.error (.abstained _ related))
    all_goals exact .error rfl
  | ok plan =>
    dsimp only
    split
    · exact .ok (.error (.abstained _ related))
    have answers := generators (generationRequest unit plan options)
    generalize first.generator.generate (generationRequest unit plan options) = answer at answers ⊢
    generalize second.generator.generate (generationRequest unit plan options) = other at answers ⊢
    cases answers with
    | error same =>
      subst same
      split
      · exact .ok (.error (.abstained _ related))
      · exact .error rfl
      next success => cases success
    | ok batch => exact .ok (decides plan _ _ left right batch related)

theorem runUnits_related {units : List RewriteUnit}
    (each : ∀ unit ∈ units, ∀ left right, records left right → Related Eq (Related (SameDecision records) (SameProgress records))
      (first.evaluateUnit unit options cancellation left) (second.evaluateUnit unit options cancellation right))
    {left right : RunState} (related : SameState records left right) : Related Eq (Related (SameDecision records) (SameState records))
      (first.runUnits options cancellation units left) (second.runUnits options cancellation units right) := by
  induction units generalizing left right with
  | nil => exact .ok (.ok related)
  | cons unit units ih =>
    have decision := each unit (by simp) left.assessments right.assessments related.recorded
    simp only [runUnits]
    generalize first.evaluateUnit unit options cancellation left.assessments = answer at decision ⊢
    generalize second.evaluateUnit unit options cancellation right.assessments = other at decision ⊢
    cases decision with
    | error same => exact .error same
    | ok decided =>
      cases decided with
      | error stopped => exact .ok (.error stopped)
      | ok progress =>
        apply ih fun later member => each later (List.mem_cons_of_mem _ member)
        exact ⟨by simp [RunState.record, related.edits, progress.replacement],
          by simp [RunState.record, related.selected, progress.selected], progress.recorded⟩

theorem run_related {document : DocumentIr} (start : records [] []) (each : ∀ unit ∈ document.rewriteUnits, ∀ left right, records left right →
      Related Eq (Related (SameDecision records) (SameProgress records))
        (first.evaluateUnit unit options cancellation left) (second.evaluateUnit unit options cancellation right)) :
    Related Eq (SameDecision records) (first.run document options cancellation) (second.run document options cancellation) := by
  have started : SameState records ⟨[], [], []⟩ ⟨[], [], []⟩ := ⟨rfl, rfl, start⟩
  have units := runUnits_related each started
  simp only [run]
  split
  · exact .error rfl
  split
  · exact .error rfl
  split
  · exact .ok (.abstained _ start)
  split
  · exact .ok (.abstained _ start)
  split
  · exact .ok ⟨rfl, rfl, rfl, rfl, start⟩
  generalize first.runUnits options cancellation document.rewriteUnits ⟨[], [], []⟩ = answer at units ⊢
  generalize second.runUnits options cancellation document.rewriteUnits ⟨[], [], []⟩ = other at units ⊢
  cases units with
  | error same => exact .error same
  | ok decided =>
    cases decided with
    | error stopped => exact .ok stopped
    | ok state =>
      refine .ok ?_
      unfold finishRun
      split
      · exact .abstained _ state.recorded
      · exact ⟨by rw [state.edits], rfl, state.edits, state.selected, state.recorded⟩

end Retonr.RewriteEngine
