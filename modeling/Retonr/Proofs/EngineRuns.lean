import Retonr.Engine.Engine

/-! What a run can do. Every assessment a run reports was made for a candidate of an
accepted batch, and every edit is the restored text of an eligible candidate. -/

namespace Retonr.RewriteEngine
open Text List

variable {engine : RewriteEngine} {options : RewriteOptions} {cancellation : CancellationToken}

/-- The text a candidate stands for: its sentinel form with every protected value put back. -/
def restoredForm (unicode : Unicode) (plan : ProtectionPlan) (candidate : GeneratedCandidate) : Except ProtectionError Text :=
  maskedForm unicode plan candidate >>= plan.restore unicode

/-- The candidate belongs to a batch that was generated for the planned unit and accepted. -/
structure Offered (engine : RewriteEngine) (options : RewriteOptions) (unit : RewriteUnit) (plan : ProtectionPlan)
    (candidates : List GeneratedCandidate) (candidate : GeneratedCandidate) : Prop where
  built : ProtectionPlan.build engine.environment.unicode unit.text options.protectedTerms = .ok plan
  generated : engine.generator.generate (generationRequest unit plan options) = .ok candidates
  accepted : Policy.candidateBatchReason unit.id candidates = none
  member : candidate ∈ candidates

/-- The assessment was made for an offered candidate of the unit. -/
def Recorded (engine : RewriteEngine) (options : RewriteOptions) (unit : RewriteUnit) (assessment : CandidateAssessment) : Prop :=
  ∃ plan candidates candidate, Offered engine options unit plan candidates candidate ∧
    assessment = (engine.assessCandidate unit candidate plan options).assessment

/-- The decision for a unit rests on an offered candidate that was assessed as eligible. -/
def Chosen (engine : RewriteEngine) (options : RewriteOptions) (unit : RewriteUnit) (selected : CandidateId)
    (replacement : Option Text) : Prop :=
  ∃ plan candidates candidate, Offered engine options unit plan candidates candidate ∧
    (engine.assessCandidate unit candidate plan options).assessment.eligible = true ∧
    selected = (engine.assessCandidate unit candidate plan options).candidate.generated.id ∧
    replacement =
      if (engine.assessCandidate unit candidate plan options).candidate.restored ≠ unit.text then
        some (engine.assessCandidate unit candidate plan options).candidate.restored
      else none

def recordAll (engine : RewriteEngine) (unit : RewriteUnit) (plan : ProtectionPlan) (options : RewriteOptions)
    (candidates : List GeneratedCandidate) (state : BatchState) : BatchState :=
  candidates.foldl (fun state candidate => state.record (engine.assessCandidate unit candidate plan options)) state

theorem recordAll_assessments (unit : RewriteUnit) (plan : ProtectionPlan) (candidates : List GeneratedCandidate) (state : BatchState) :
    (engine.recordAll unit plan options candidates state).assessments =
      state.assessments ++ candidates.map fun candidate => (engine.assessCandidate unit candidate plan options).assessment := by
  induction candidates generalizing state with
  | nil => simp [recordAll]
  | cons candidate candidates ih =>
    refine (ih (state.record (engine.assessCandidate unit candidate plan options))).trans ?_
    simp [BatchState.record]

theorem recordAll_eligible (unit : RewriteUnit) (plan : ProtectionPlan) (candidates : List GeneratedCandidate) (state : BatchState) :
    (engine.recordAll unit plan options candidates state).eligible = state.eligible ++
      ((candidates.map fun candidate => engine.assessCandidate unit candidate plan options).filter
        (·.assessment.eligible)).map EvaluatedCandidate.candidate := by
  induction candidates generalizing state with
  | nil => simp [recordAll]
  | cons candidate candidates ih =>
    refine (ih (state.record (engine.assessCandidate unit candidate plan options))).trans ?_
    cases eligible : (engine.assessCandidate unit candidate plan options).assessment.eligible <;>
      simp [BatchState.record, eligible]

/-- The assessment loop either records the whole batch or stops, cancelled, after a start of it. -/
theorem assessBatch_cases (unit : RewriteUnit) (plan : ProtectionPlan) (candidates : List GeneratedCandidate) (state : BatchState) :
    engine.assessBatch unit plan options cancellation candidates state = .ok (engine.recordAll unit plan options candidates state) ∨
      ∃ assessed rest, candidates = assessed ++ rest ∧ engine.assessBatch unit plan options cancellation candidates state =
        .error (.abstained .cancelled (engine.recordAll unit plan options assessed state).assessments) := by
  induction candidates generalizing state with
  | nil => exact Or.inl rfl
  | cons candidate candidates ih =>
    simp only [assessBatch]
    split
    · exact Or.inr ⟨[candidate], candidates, rfl, rfl⟩
    · rcases ih (state.record (engine.assessCandidate unit candidate plan options)) with done | ⟨assessed, rest, rfl, stopped⟩
      · exact Or.inl done
      · exact Or.inr ⟨candidate :: assessed, rest, rfl, stopped⟩

variable {unit : RewriteUnit}

/-- A unit whose batch was assessed either abstains or progresses, and records what it assessed. -/
theorem evaluateBatch_cases {plan : ProtectionPlan} {candidates : List GeneratedCandidate}
    (built : ProtectionPlan.build engine.environment.unicode unit.text options.protectedTerms = .ok plan)
    (generated : engine.generator.generate (generationRequest unit plan options) = .ok candidates) (assessments : List CandidateAssessment) :
    ∃ extra : List CandidateAssessment, (∀ assessment ∈ extra, Recorded engine options unit assessment) ∧
      ((∃ reason, engine.evaluateBatch unit plan options cancellation candidates assessments =
          .error (.abstained reason (assessments ++ extra))) ∨
        ∃ progress, engine.evaluateBatch unit plan options cancellation candidates assessments = .ok progress ∧
          progress.assessments = assessments ++ extra ∧ Chosen engine options unit progress.selected progress.replacement) := by
  simp only [evaluateBatch]
  split
  · exact ⟨[], by simp, Or.inl ⟨.cancelled, by simp⟩⟩
  split
  next reason _ => exact ⟨[], by simp, Or.inl ⟨reason, by simp⟩⟩
  next accepted =>
    have recorded : ∀ assessed ⊆ candidates, ∀ assessment ∈ assessed.map fun candidate =>
        (engine.assessCandidate unit candidate plan options).assessment, Recorded engine options unit assessment := by
      intro assessed part assessment member
      obtain ⟨candidate, inside, rfl⟩ := mem_map.mp member
      exact ⟨plan, candidates, candidate, ⟨built, generated, accepted, part inside⟩, rfl⟩
    rcases assessBatch_cases unit plan candidates ⟨[], none, assessments⟩ with done | ⟨assessed, rest, rfl, stopped⟩
    · refine ⟨_, recorded candidates (List.Subset.refl _), ?_⟩
      rw [done]
      simp only [bind, Except.bind, decideUnit]
      rw [recordAll_assessments]
      split
      · exact Or.inl ⟨_, rfl⟩
      next selected chosen =>
        refine Or.inr ⟨_, rfl, rfl, ?_⟩
        have member := MaxBy.mem_of_eq chosen
        rw [recordAll_eligible, nil_append] at member
        obtain ⟨evaluated, inside, rfl⟩ := mem_map.mp member
        obtain ⟨inBatch, eligible⟩ := mem_filter.mp inside
        obtain ⟨candidate, offered, rfl⟩ := mem_map.mp inBatch
        exact ⟨plan, candidates, candidate, ⟨built, generated, accepted, offered⟩, eligible, rfl, rfl⟩
    · refine ⟨_, recorded assessed (subset_append_left _ _), Or.inl ⟨.cancelled, ?_⟩⟩
      rw [stopped]
      simp only [bind, Except.bind]
      rw [recordAll_assessments]

theorem evaluateUnit_cases {assessments : List CandidateAssessment} {decision : Except EngineOutcome UnitProgress}
    (evaluated : engine.evaluateUnit unit options cancellation assessments = .ok decision) :
    ∃ extra : List CandidateAssessment, (∀ assessment ∈ extra, Recorded engine options unit assessment) ∧
      ((∃ reason, decision = .error (.abstained reason (assessments ++ extra))) ∨
        ∃ progress, decision = .ok progress ∧ progress.assessments = assessments ++ extra ∧
          Chosen engine options unit progress.selected progress.replacement) := by
  have abstains : ∀ reason, decision = .error (.abstained reason assessments) →
      ∃ extra : List CandidateAssessment, (∀ assessment ∈ extra, Recorded engine options unit assessment) ∧
        ((∃ reason, decision = .error (.abstained reason (assessments ++ extra))) ∨
          ∃ progress, decision = .ok progress ∧ progress.assessments = assessments ++ extra ∧
            Chosen engine options unit progress.selected progress.replacement) := by
    rintro reason rfl
    exact ⟨[], by simp, Or.inl ⟨reason, by simp⟩⟩
  simp only [evaluateUnit] at evaluated
  split at evaluated
  · cases evaluated
    exact abstains _ rfl
  split at evaluated
  · cases evaluated
    exact abstains _ rfl
  · cases evaluated
    exact abstains _ rfl
  · cases evaluated
  next plan built =>
    split at evaluated
    · cases evaluated
      exact abstains _ rfl
    split at evaluated
    · cases evaluated
      exact abstains _ rfl
    · cases evaluated
    next candidates generated =>
      cases evaluated
      exact evaluateBatch_cases built generated assessments

/-- The edits of a list of units, given the decision for each. -/
def editsOf (units : List RewriteUnit) (decisions : List (CandidateId × Option Text)) : List AcceptedEdit :=
  (units.zip decisions).filterMap fun entry => entry.2.2.map fun replacement => ⟨entry.1.id, replacement⟩

/-- What the loop over the units has established about the units it has passed. -/
structure Progressed (engine : RewriteEngine) (options : RewriteOptions) (units : List RewriteUnit) (state : RunState) : Prop where
  recorded : ∀ assessment ∈ state.assessments, ∃ unit ∈ units, Recorded engine options unit assessment
  decided : ∃ decisions : List (CandidateId × Option Text),
    List.Forall₂ (fun unit decision => Chosen engine options unit decision.1 decision.2) units decisions ∧
    state.selectedCandidates = decisions.map Prod.fst ∧ state.edits = editsOf units decisions

variable {units : List RewriteUnit}

theorem Progressed.step {state : RunState} (progressed : Progressed engine options units state)
    {progress : UnitProgress} {extra : List CandidateAssessment}
    (assessed : progress.assessments = state.assessments ++ extra) (fresh : ∀ assessment ∈ extra, Recorded engine options unit assessment)
    (chosen : Chosen engine options unit progress.selected progress.replacement) :
    Progressed engine options (units ++ [unit]) (state.record unit progress) where
  recorded := by
    intro assessment member
    simp only [RunState.record, assessed, mem_append] at member
    rcases member with earlier | new
    · obtain ⟨passed, inside, recorded⟩ := progressed.recorded assessment earlier
      exact ⟨passed, mem_append_left _ inside, recorded⟩
    · exact ⟨unit, by simp, fresh assessment new⟩
  decided := by
    obtain ⟨decisions, each, selected, edits⟩ := progressed.decided
    refine ⟨decisions ++ [(progress.selected, progress.replacement)], rel_append each (.cons chosen .nil), ?_, ?_⟩
    · simp [RunState.record, selected]
    · rw [editsOf, zip_append each.length_eq, filterMap_append]
      simp only [RunState.record, edits, editsOf]
      cases progress.replacement <;> rfl

theorem runUnits_cases {passed : List RewriteUnit} {state : RunState} {result : Except EngineOutcome RunState}
    (progressed : Progressed engine options passed state) (ran : engine.runUnits options cancellation units state = .ok result) :
    (∃ reason assessments, result = .error (.abstained reason assessments) ∧
        ∀ assessment ∈ assessments, ∃ unit ∈ passed ++ units, Recorded engine options unit assessment) ∨
      ∃ final, result = .ok final ∧ Progressed engine options (passed ++ units) final := by
  induction units generalizing passed state with
  | nil =>
    cases ran
    exact Or.inr ⟨state, rfl, by simpa using progressed⟩
  | cons unit units ih =>
    simp only [runUnits] at ran
    split at ran
    · cases ran
    next outcome evaluated =>
      cases ran
      obtain ⟨extra, fresh, ⟨reason, shape⟩ | ⟨_, shape, _⟩⟩ := evaluateUnit_cases evaluated
      · cases shape
        refine Or.inl ⟨reason, _, rfl, ?_⟩
        intro assessment member
        rcases mem_append.mp member with earlier | new
        · obtain ⟨before, inside, recorded⟩ := progressed.recorded assessment earlier
          exact ⟨before, mem_append_left _ inside, recorded⟩
        · exact ⟨unit, by simp, fresh assessment new⟩
      · cases shape
    next progress evaluated =>
      obtain ⟨extra, fresh, ⟨_, shape⟩ | ⟨_, shape, assessed, chosen⟩⟩ := evaluateUnit_cases evaluated
      · cases shape
      · cases shape
        simpa using ih (progressed.step assessed fresh chosen) ran

/-- The ways a run can end. -/
inductive Finished (engine : RewriteEngine) (options : RewriteOptions) (units : List RewriteUnit) : EngineOutcome → Prop
  | abstained (reason : ReasonCode) (assessments : List CandidateAssessment)
      (recorded : ∀ assessment ∈ assessments, ∃ unit ∈ units, Recorded engine options unit assessment) :
      Finished engine options units (.abstained reason assessments)
  | noContent (empty : units = []) : Finished engine options units ⟨.unchangedNoEligibleContent, none, [], [], []⟩
  | decided (state : RunState) (progressed : Progressed engine options units state) :
      Finished engine options units ⟨if state.edits = [] then .unchangedIdentical else .rewritten, none, state.edits,
        state.assessments, state.selectedCandidates⟩

variable {outcome : EngineOutcome}

theorem run_finished {document : DocumentIr} (ran : engine.run document options cancellation = .ok outcome) :
    Policy.validateRewriteOptions options = .ok () ∧ document.validate = .ok () ∧ Finished engine options document.rewriteUnits outcome := by
  simp only [run] at ran
  split at ran
  · cases ran
  next valid =>
    split at ran
    · cases ran
    next wellFormed =>
      refine ⟨valid, wellFormed, ?_⟩
      split at ran
      · cases ran
        exact .abstained _ [] (by simp)
      split at ran
      · cases ran
        exact .abstained _ [] (by simp)
      split at ran
      next empty =>
        cases ran
        exact .noContent empty
      have started : Progressed engine options [] ⟨[], [], []⟩ := ⟨by simp, [], .nil, rfl, rfl⟩
      split at ran
      · cases ran
      next ended =>
        cases ran
        rcases runUnits_cases started ended with ⟨reason, assessments, shape, recorded⟩ | ⟨_, shape, _⟩
        · cases shape
          exact .abstained reason assessments recorded
        · cases shape
      next state ended =>
        cases ran
        rcases runUnits_cases started ended with ⟨_, _, shape, _⟩ | ⟨final, shape, progressed⟩
        · cases shape
        · cases shape
          unfold finishRun
          split
          · exact .abstained _ _ progressed.recorded
          · exact .decided state progressed

theorem Finished.recorded (finished : Finished engine options units outcome) :
    ∀ assessment ∈ outcome.assessments, ∃ unit ∈ units, Recorded engine options unit assessment := by
  cases finished with
  | abstained reason assessments recorded => exact recorded
  | noContent empty => simp
  | decided state progressed => exact progressed.recorded

/-- Every edit of a run is the restored text of an eligible candidate, and differs from its unit's text. -/
theorem Finished.edited (finished : Finished engine options units outcome) :
    ∀ edit ∈ outcome.edits, ∃ unit ∈ units, edit.unitId = unit.id ∧ edit.replacement ≠ unit.text ∧
      ∃ plan candidates candidate, Offered engine options unit plan candidates candidate ∧
        (engine.assessCandidate unit candidate plan options).assessment.eligible = true ∧
        edit.replacement = (engine.assessCandidate unit candidate plan options).candidate.restored := by
  cases finished with
  | abstained reason assessments recorded => simp [EngineOutcome.abstained]
  | noContent empty => simp
  | decided state progressed =>
    obtain ⟨decisions, each, _, edits⟩ := progressed.decided
    intro edit member
    simp only [edits, editsOf, mem_filterMap, Option.map_eq_some_iff] at member
    obtain ⟨⟨unit, decision⟩, inside, replacement, replaced, rfl⟩ := member
    have chosen := forall₂_zip each inside
    obtain ⟨plan, candidates, candidate, offered, eligible, _, outcome⟩ := chosen
    rw [replaced] at outcome
    split at outcome
    next differs =>
      cases outcome
      exact ⟨unit, (of_mem_zip inside).1, rfl, differs, plan, candidates, candidate, offered, eligible, rfl⟩
    · cases outcome

/-- The generator always answers and every unit can be planned. -/
structure Answerable (engine : RewriteEngine) (options : RewriteOptions) (units : List RewriteUnit) : Prop where
  generates : ∀ request, ∃ candidates, engine.generator.generate request = .ok candidates
  planned : ∀ unit ∈ units, ∃ plan, ProtectionPlan.build engine.environment.unicode unit.text options.protectedTerms = .ok plan

theorem evaluateUnit_answers (answerable : engine.Answerable options units)
    (member : unit ∈ units) (cancellation : CancellationToken) (assessments : List CandidateAssessment) :
    ∃ answer, engine.evaluateUnit unit options cancellation assessments = .ok answer := by
  obtain ⟨plan, built⟩ := answerable.planned unit member
  obtain ⟨candidates, generated⟩ := answerable.generates (generationRequest unit plan options)
  simp only [evaluateUnit, built, generated]
  split
  · exact ⟨_, rfl⟩
  split
  · exact ⟨_, rfl⟩
  · exact ⟨_, rfl⟩

theorem runUnits_answers (answerable : engine.Answerable options units) (cancellation : CancellationToken)
    (state : RunState) : ∃ answer, engine.runUnits options cancellation units state = .ok answer := by
  induction units generalizing state with
  | nil => exact ⟨_, rfl⟩
  | cons unit units ih =>
    obtain ⟨answer, evaluated⟩ := evaluateUnit_answers answerable mem_cons_self cancellation state.assessments
    simp only [runUnits, evaluated]
    cases answer with
    | error outcome => exact ⟨_, rfl⟩
    | ok progress =>
      apply ih
      exact ⟨answerable.generates, fun later member => answerable.planned later (mem_cons_of_mem _ member)⟩

/-- A run over a valid document with supported options always ends with an outcome. -/
theorem run_answers {document : DocumentIr} (answerable : engine.Answerable options document.rewriteUnits)
    (supported : Policy.validateRewriteOptions options = .ok ()) (valid : document.validate = .ok ())
    (cancellation : CancellationToken) : ∃ outcome, engine.run document options cancellation = .ok outcome := by
  obtain ⟨answer, ran⟩ := runUnits_answers answerable cancellation ⟨[], [], []⟩
  simp only [run, supported, valid, ran]
  split
  · exact ⟨_, rfl⟩
  split
  · exact ⟨_, rfl⟩
  split
  · exact ⟨_, rfl⟩
  cases answer with
  | error outcome => exact ⟨_, rfl⟩
  | ok state => exact ⟨_, rfl⟩

end Retonr.RewriteEngine
