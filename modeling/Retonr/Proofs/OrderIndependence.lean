import Retonr.Adapter.TextAdapter
import Retonr.Proofs.EngineRuns
import Retonr.Proofs.TwoRuns

/-! The order of a candidate batch does not matter: selection is by a total order that
separates candidate identities, and the reported reason is the one of least priority. -/

namespace Retonr
open Text Std Retonr.Except

theorem compareCandidates_eq_lex : compareCandidates = compareLex (compareOn fun candidate => candidate.rank.style.totalRank)
      (compareLex (compareOn fun candidate => candidate.rank.channel.totalRank)
        (compareLex (flip (compareOn fun candidate => candidate.rank.editorialPenalty))
          (compareLex (compareOn fun candidate => candidate.rank.fluency.totalRank)
            (compareLex (flip (compareOn fun candidate => candidate.rank.editCost))
              (flip (compareOn fun candidate => candidate.id.asStr)))))) := rfl

instance : TransCmp compareCandidates := by
  rw [compareCandidates_eq_lex]
  infer_instance

theorem id_eq_of_compareCandidates {left right : GeneratedCandidate} (equal : compareCandidates left right = .eq) : left.id = right.id := by
  simp only [compareCandidates, Ordering.then_eq_eq] at equal
  have same : right.id.asStr = left.id.asStr := LawfulEqOrd.eq_of_compare equal.2.2.2.2.2
  cases left with
  | mk leftId _ _ _ _ =>
    cases right with
    | mk rightId _ _ _ _ =>
      cases leftId
      cases rightId
      simp_all

instance : TransCmp fun left right : EligibleCandidate => compareCandidates left.generated right.generated where
  eq_swap := OrientedCmp.eq_swap
  isLE_trans := TransCmp.isLE_trans

theorem Policy.reasonPriority_injective : Function.Injective Policy.reasonPriority := by
  intro left right same
  cases left <;> cases right <;> first | rfl | cases same

theorem Policy.priority_preferredReason (current reason : ReasonCode) :
    reasonPriority (preferredReason (some current) reason) = min (reasonPriority current) (reasonPriority reason) := by
  simp only [preferredReason]
  split <;> omega

theorem Policy.preferredReason_comm (current : Option ReasonCode) (left right : ReasonCode) :
    preferredReason (some (preferredReason current left)) right = preferredReason (some (preferredReason current right)) left := by
  apply reasonPriority_injective
  cases current with
  | none =>
    simp only [priority_preferredReason]
    exact min_comm (reasonPriority left) (reasonPriority right)
  | some reason =>
    simp only [priority_preferredReason]
    exact min_right_comm (reasonPriority reason) (reasonPriority left) (reasonPriority right)

namespace RewriteEngine

variable {engine : RewriteEngine} {options : RewriteOptions} {unit : RewriteUnit}

theorem assessMeaning_id (candidate : GeneratedCandidate) (restored : Text) (gates : List GateResult) :
    (engine.assessMeaning unit candidate options restored gates).candidate.generated.id = candidate.id := by
  simp only [assessMeaning]
  split <;> rfl

theorem assessCandidate_id (candidate : GeneratedCandidate) (plan : ProtectionPlan) :
    (engine.assessCandidate unit candidate plan options).candidate.generated.id = candidate.id := by
  simp only [assessCandidate]
  split
  next rejected =>
    simp only [Gates.validateCandidateMetadata] at rejected
    split at rejected
    · cases rejected
      rfl
    split at rejected
    · cases rejected
      rfl
    · cases rejected
  split
  · rfl
  split
  · rfl
  simp only [assessRestored]
  split
  · rfl
  split
  · exact assessMeaning_id candidate _ _
  split
  · rfl
  · exact assessMeaning_id candidate _ _

/-- What one assessed candidate does to the reason reported so far. -/
def reasonStep (current : Option ReasonCode) (evaluated : EvaluatedCandidate) : Option ReasonCode :=
  if evaluated.assessment.eligible then current
  else
    match evaluated.reason with
    | some reason => some (Policy.preferredReason current reason)
    | none => current

theorem recordAll_reason (plan : ProtectionPlan) (candidates : List GeneratedCandidate) (state : BatchState) :
    (engine.recordAll unit plan options candidates state).reason =
      (candidates.map fun candidate => engine.assessCandidate unit candidate plan options).foldl reasonStep state.reason := by
  induction candidates generalizing state with
  | nil => rfl
  | cons candidate candidates ih => exact ih (state.record (engine.assessCandidate unit candidate plan options))

theorem reasonStep_comm (current : Option ReasonCode) (left right : EvaluatedCandidate) :
    reasonStep (reasonStep current left) right = reasonStep (reasonStep current right) left := by
  simp only [reasonStep]
  cases left.assessment.eligible <;> cases right.assessment.eligible <;> cases left.reason <;> cases right.reason <;>
    simp [Policy.preferredReason_comm]

theorem assessBatch_never (plan : ProtectionPlan) (candidates : List GeneratedCandidate) (state : BatchState) :
    engine.assessBatch unit plan options .never candidates state = .ok (engine.recordAll unit plan options candidates state) := by
  induction candidates generalizing state with
  | nil => rfl
  | cons candidate candidates ih => exact ih (state.record (engine.assessCandidate unit candidate plan options))

variable {candidates others : List GeneratedCandidate}

theorem candidateBatchReason_perm (unitId : RewriteUnitId) (permuted : candidates.Perm others) :
    Policy.candidateBatchReason unitId candidates = Policy.candidateBatchReason unitId others := by
  have identities : Policy.candidateBatchIdentityIsValid unitId candidates = Policy.candidateBatchIdentityIsValid unitId others := by
    simp only [Policy.candidateBatchIdentityIsValid, permuted.all_eq, (permuted.map GeneratedCandidate.id).nodup_iff]
  simp only [Policy.candidateBatchReason, permuted.length_eq, identities]

theorem nodup_of_candidateBatchReason {unitId : RewriteUnitId}
    (accepted : Policy.candidateBatchReason unitId candidates = none) : (candidates.map GeneratedCandidate.id).Nodup := by
  simp only [Policy.candidateBatchReason, Option.or_eq_none_iff] at accepted
  by_contra repeated
  simp [Policy.candidateBatchIdentityIsValid, repeated] at accepted

/-- With distinct identities, the selected candidate is the same for every order of the batch. -/
theorem selected_perm (plan : ProtectionPlan) (permuted : candidates.Perm others)
    (distinct : (candidates.map GeneratedCandidate.id).Nodup) (left right : List CandidateAssessment) :
    maxBy (fun left right => compareCandidates left.generated right.generated)
        (engine.recordAll unit plan options candidates ⟨[], none, left⟩).eligible =
      maxBy (fun left right => compareCandidates left.generated right.generated)
        (engine.recordAll unit plan options others ⟨[], none, right⟩).eligible := by
  rw [recordAll_eligible, recordAll_eligible, List.nil_append, List.nil_append]
  apply MaxBy.eq_of_perm
  · exact ((permuted.map _).filter _).map _
  · have origin : ∀ entry ∈ ((candidates.map fun candidate => engine.assessCandidate unit candidate plan options).filter
        (·.assessment.eligible)).map EvaluatedCandidate.candidate,
        ∃ candidate ∈ candidates, entry = (engine.assessCandidate unit candidate plan options).candidate := by
      intro entry member
      obtain ⟨evaluated, kept, rfl⟩ := List.mem_map.mp member
      obtain ⟨candidate, inside, rfl⟩ := List.mem_map.mp (List.mem_filter.mp kept).1
      exact ⟨candidate, inside, rfl⟩
    intro first firstMember second secondMember equal
    obtain ⟨candidate, inside, rfl⟩ := origin first firstMember
    obtain ⟨rival, alsoInside, rfl⟩ := origin second secondMember
    have same := id_eq_of_compareCandidates equal
    rw [assessCandidate_id, assessCandidate_id] at same
    rw [List.inj_on_of_nodup_map distinct inside alsoInside same]

theorem evaluateBatch_perm (plan : ProtectionPlan) (permuted : candidates.Perm others)
    {left right : List CandidateAssessment} (related : left.Perm right) :
    Related (SameDecision List.Perm) (SameProgress List.Perm) (engine.evaluateBatch unit plan options .never candidates left)
      (engine.evaluateBatch unit plan options .never others right) := by
  have reasons : (engine.recordAll unit plan options candidates ⟨[], none, left⟩).reason =
      (engine.recordAll unit plan options others ⟨[], none, right⟩).reason := by
    rw [recordAll_reason, recordAll_reason]
    exact (permuted.map _).foldl_eq' (fun first _ second _ current => reasonStep_comm current first second) none
  have records : (engine.recordAll unit plan options candidates ⟨[], none, left⟩).assessments.Perm
      (engine.recordAll unit plan options others ⟨[], none, right⟩).assessments := by
    rw [recordAll_assessments, recordAll_assessments]
    exact related.append (permuted.map _)
  simp only [evaluateBatch, candidateBatchReason_perm unit.id permuted, assessBatch_never]
  split
  · exact .error (.abstained _ related)
  split
  · exact .error (.abstained _ related)
  next accepted =>
    rw [← candidateBatchReason_perm unit.id permuted] at accepted
    simp only [ok_bind, decideUnit, reasons, selected_perm plan permuted (nodup_of_candidateBatchReason accepted) left right]
    split
    · exact .error (.abstained _ records)
    · exact .ok ⟨rfl, rfl, records⟩

theorem evaluateBatch_generator (generator : CandidateGenerator) (plan : ProtectionPlan) (cancellation : CancellationToken)
    (candidates : List GeneratedCandidate) (assessments : List CandidateAssessment) :
    { engine with generator }.evaluateBatch unit plan options cancellation candidates assessments =
      engine.evaluateBatch unit plan options cancellation candidates assessments := by
  have assessed : ∀ (candidates : List GeneratedCandidate) (state : BatchState),
      { engine with generator }.assessBatch unit plan options cancellation candidates state =
        engine.assessBatch unit plan options cancellation candidates state := by
    intro candidates
    induction candidates with
    | nil => exact fun state => rfl
    | cons candidate candidates ih =>
      intro state
      simp only [assessBatch, ih]
      rfl
  simp only [evaluateBatch, assessed]

/-- Permuting the batches a generator returns changes no decision of a run that is not
cancelled: status, reason, edits and selection are the same, and the records follow the batches. -/
theorem candidate_order_is_irrelevant (engine : RewriteEngine) (permuted : CandidateGenerator) (document : DocumentIr)
    (options : RewriteOptions)
    (reordered : ∀ request, Related Eq List.Perm (engine.generator.generate request) (permuted.generate request)) :
    Related Eq (SameDecision List.Perm) (engine.run document options .never)
      ({ engine with generator := permuted }.run document options .never) := by
  apply run_related .nil
  intro unit _ left right related
  have environment : engine.environment = { engine with generator := permuted }.environment := rfl
  refine evaluateUnit_related List.Perm environment reordered ?_ related
  intro plan candidates others left right reordered related
  rw [evaluateBatch_generator permuted]
  exact evaluateBatch_perm plan reordered related

/-- Two punctuated candidates under the literal evaluator. -/
def punctuatingEngine : RewriteEngine where
  environment := ⟨Unicode.ascii, fun _ => 0⟩
  generator := providedCandidateGenerator [['a', '!'], ['a', '?']] false
  semantic := Semantic.literalSemanticEvaluator Unicode.ascii
  structural := ⟨fun _ _ => .preserved⟩
  claimShadow := none

def reversedGenerator (generator : CandidateGenerator) : CandidateGenerator where
  generate request := (generator.generate request).map List.reverse

theorem candidate_order_is_irrelevant_reversed :
    ∃ parsed forward backward, TextAdapter.parse (encode ['a']) = .ok parsed ∧
      punctuatingEngine.run parsed.document { RewriteOptions.default with mode := .literal } .never = .ok forward ∧
      { punctuatingEngine with generator := reversedGenerator punctuatingEngine.generator }.run parsed.document
        { RewriteOptions.default with mode := .literal } .never = .ok backward ∧
      forward.status = .rewritten ∧ SameDecision List.Perm forward backward := by
  have rewritten : (TextAdapter.parse (encode ['a'])).toOption.map (fun parsed =>
      (punctuatingEngine.run parsed.document { RewriteOptions.default with mode := .literal } .never).toOption.map
        EngineOutcome.status) = some (some .rewritten) := by
    decide +kernel
  obtain ⟨parsed, parses, runs⟩ := map_toOption_eq_some.mp rewritten
  obtain ⟨forward, ran, status⟩ := map_toOption_eq_some.mp runs
  have reordered : ∀ request, Related Eq List.Perm (punctuatingEngine.generator.generate request)
      ((reversedGenerator punctuatingEngine.generator).generate request) :=
    fun request => .ok (List.reverse_perm _).symm
  have same := candidate_order_is_irrelevant punctuatingEngine (reversedGenerator punctuatingEngine.generator) parsed.document
    { RewriteOptions.default with mode := .literal } reordered
  rw [ran] at same
  generalize backwards : { punctuatingEngine with generator := reversedGenerator punctuatingEngine.generator }.run parsed.document
    { RewriteOptions.default with mode := .literal } .never = answer at same
  cases same with
  | ok decided => exact ⟨parsed, forward, _, parses, ran, backwards, status, decided⟩

end RewriteEngine

end Retonr
