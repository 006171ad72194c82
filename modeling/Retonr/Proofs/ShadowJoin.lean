import Retonr.App.Grounded

/-! When the shadow join can fail. With a well-formed binding and an extractor that is neither
cancelled nor out of time, it fails exactly on a text that exceeds the binding's own limits. -/

namespace Retonr
open Text Retonr.Except ClaimExtraction

/-- The backend fails extraction calls only with faults other than cancellation and deadline. -/
structure InferenceBackend.Quiet (backend : InferenceBackend) : Prop where
  discoveries : ∀ call fault, backend.discover (call + 1) = .error fault → fault.kind ≠ .cancelled ∧ fault.kind ≠ .deadline
  completions : ∀ call request fault, backend.completeStructured call request = .error fault →
    fault.kind ≠ .cancelled ∧ fault.kind ≠ .deadline

/-- The manifest matches the operation and the binding's own values are in range. -/
structure ClaimShadowJoinBinding.WellFormed (binding : ClaimShadowJoinBinding) : Prop where
  manifest : manifestMatches binding.manifest = true
  bounds : boundsAreValid binding = true

/-- Both texts and both filled prompts stay within the limits of the product and of the binding. -/
structure ClaimShadowJoinBinding.Admits (binding : ClaimShadowJoinBinding) (unitId : RewriteUnitId) (source candidate : Text) : Prop where
  sourceFits : byteLen source ≤ textLimit binding.sourceByteLimit
  candidateFits : byteLen candidate ≤ textLimit binding.sourceByteLimit
  sourcePrompt : byteLen (filledPrompt unitId source) ≤ min binding.inputByteLimit (usizeLimit - 1)
  candidatePrompt : byteLen (filledPrompt unitId candidate) ≤ min binding.inputByteLimit (usizeLimit - 1)

theorem ClaimShadowJoinBinding.admits_iff (binding : ClaimShadowJoinBinding) (unitId : RewriteUnitId) (source candidate : Text) :
    (byteLen source ≤ textLimit binding.sourceByteLimit ∧ byteLen candidate ≤ textLimit binding.sourceByteLimit ∧
      byteLen (filledPrompt unitId source) ≤ min binding.inputByteLimit (usizeLimit - 1) ∧
      byteLen (filledPrompt unitId candidate) ≤ min binding.inputByteLimit (usizeLimit - 1)) ↔
    binding.Admits unitId source candidate :=
  ⟨fun ⟨first, second, third, fourth⟩ => ⟨first, second, third, fourth⟩,
    fun admits => ⟨admits.sourceFits, admits.candidateFits, admits.sourcePrompt, admits.candidatePrompt⟩⟩

instance (binding : ClaimShadowJoinBinding) (unitId : RewriteUnitId) (source candidate : Text) :
    Decidable (binding.Admits unitId source candidate) := decidable_of_iff _ (binding.admits_iff unitId source candidate)

namespace ClaimExtraction

/-- The faults of a request that exceeds a limit; the join does not skip them. -/
def Exceeds (fault : ClaimExtractionError) : Prop := fault = .invalidRequest ∨ ∃ actual maximum, fault = .textTooLarge actual maximum

theorem enforceTextLimit_cases (text : Text) (limit : Nat) : (enforceTextLimit text limit = .ok () ∧ byteLen text ≤ textLimit limit) ∨
      (∃ fault, enforceTextLimit text limit = .error fault ∧ Exceeds fault) ∧ ¬ byteLen text ≤ textLimit limit := by
  unfold enforceTextLimit
  split
  next large => exact Or.inr ⟨⟨_, rfl, Or.inr ⟨_, _, rfl⟩⟩, Nat.not_le.mpr large⟩
  next small => exact Or.inl ⟨rfl, Nat.le_of_not_lt small⟩

/-- A request with a well-formed binding is valid exactly when its texts and prompts fit. -/
theorem validateRequest_cases (request : ClaimExtractionRequest) (wellFormed : request.binding.WellFormed) :
    (validateRequest request = .ok () ∧ request.binding.Admits request.unitId request.source request.candidate) ∨
      (∃ fault, validateRequest request = .error fault ∧ Exceeds fault) ∧
        ¬ request.binding.Admits request.unitId request.source request.candidate := by
  simp only [validateRequest, wellFormed.manifest, wellFormed.bounds, Bool.true_eq_false, if_false]
  rcases enforceTextLimit_cases request.source request.binding.sourceByteLimit with
    ⟨first, small⟩ | ⟨⟨fault, failed, exceeds⟩, large⟩
  · rcases enforceTextLimit_cases request.candidate request.binding.sourceByteLimit with
      ⟨second, alsoSmall⟩ | ⟨⟨fault, failed, exceeds⟩, large⟩
    · rw [first, second]
      simp only [ok_bind]
      split
      next large =>
        refine Or.inr ⟨⟨_, rfl, Or.inl rfl⟩, fun admits => ?_⟩
        rcases large with large | large
        · exact Nat.not_le.mpr large admits.sourcePrompt
        · exact Nat.not_le.mpr large admits.candidatePrompt
      next fits =>
        simp only [not_or, Nat.not_lt] at fits
        exact Or.inl ⟨rfl, small, alsoSmall, fits.1, fits.2⟩
    · rw [first, failed]
      exact Or.inr ⟨⟨fault, rfl, exceeds⟩, fun admits => large admits.candidateFits⟩
  · rw [failed]
    exact Or.inr ⟨⟨fault, rfl, exceeds⟩, fun admits => large admits.sourceFits⟩

theorem skips_mapBackendError {fault : InferenceError} (quiet : fault.kind ≠ .cancelled ∧ fault.kind ≠ .deadline) :
    ClaimShadowJoin.skips (mapBackendError fault) = true := by
  obtain ⟨kind, code⟩ := fault
  cases kind
  case cancelled => exact absurd rfl quiet.1
  case deadline => exact absurd rfl quiet.2
  all_goals rfl

theorem skips_intoClaim {item : ClaimPayloadItem} {fault : ClaimExtractionError} (failed : item.intoClaim = .error fault) :
    ClaimShadowJoin.skips fault = true := by
  rcases bind_eq_error.mp failed with spans | ⟨spans, _, evidence⟩
  · obtain ⟨span, _, invalid⟩ := mapM_eq_error spans
    obtain ⟨_, _, rfl⟩ := mapError_eq_error.mp invalid
    rfl
  · obtain ⟨_, _, rfl⟩ := mapError_eq_error.mp evidence
    rfl

variable {parsePayload : Text → Option ClaimPayload} {request : ClaimExtractionRequest} {text : Text} {fault : ClaimExtractionError}

theorem skips_readResponse {response : StructuredCompletionResponse} (failed : readResponse parsePayload request text response = .error fault) :
    ClaimShadowJoin.skips fault = true := by
  simp only [readResponse] at failed
  split at failed
  · cases failed
    rfl
  split at failed
  · cases failed
    rfl
  next payload _ =>
    rcases bind_eq_error.mp failed with mismatched | ⟨_, _, evidence⟩
    · simp only [claimsFromPayload] at mismatched
      split at mismatched
      · cases mismatched
        rfl
      split at mismatched
      · cases mismatched
        rfl
      rcases bind_eq_error.mp mismatched with claims | ⟨_, _, impossible⟩
      · obtain ⟨item, _, invalid⟩ := mapM_eq_error claims
        exact skips_intoClaim invalid
      · cases impossible
    · obtain ⟨_, _, rfl⟩ := mapError_eq_error.mp evidence
      rfl

theorem ensureContext_never (point : Nat) : ensureContext .never point = .ok () := rfl

theorem skips_extractOne {backend : InferenceBackend} (quiet : backend.Quiet) {point call : Nat}
    (failed : extractOne parsePayload backend request text .never point call = .error fault) : ClaimShadowJoin.skips fault = true := by
  simp only [extractOne, ensureContext_never, ok_bind] at failed
  rcases bind_eq_error.mp failed with refused | ⟨response, _, unread⟩
  · obtain ⟨original, answer, rfl⟩ := mapError_eq_error.mp refused
    exact skips_mapBackendError (quiet.completions _ _ _ answer)
  · exact skips_readResponse unread

theorem skips_comparePair {source candidate : ClaimEvidenceSet} (failed : comparePair source candidate = .error fault) :
    ClaimShadowJoin.skips fault = true := by
  simp only [comparePair] at failed
  split at failed
  · rcases bind_eq_error.mp failed with incomparable | ⟨_, _, impossible⟩
    · obtain ⟨_, _, rfl⟩ := mapError_eq_error.mp incomparable
      rfl
    · cases impossible
  · cases failed

/-- After a valid request, every failure of an extraction is one the join skips. -/
theorem skips_extract {backend : InferenceBackend} (quiet : backend.Quiet) {position : Nat} (valid : validateRequest request = .ok ())
    (failed : extract parsePayload backend request .never position = .error fault) : ClaimShadowJoin.skips fault = true := by
  simp only [extract, valid, ensureContext_never, ok_bind] at failed
  rcases bind_eq_error.mp failed with refused | ⟨discovery, _, rest⟩
  · obtain ⟨original, answer, rfl⟩ := mapError_eq_error.mp refused
    exact skips_mapBackendError (quiet.discoveries _ _ answer)
  split at rest
  · cases rest
    rfl
  rcases bind_eq_error.mp rest with first | ⟨source, _, rest⟩
  · exact skips_extractOne quiet first
  rcases bind_eq_error.mp rest with second | ⟨candidate, _, compared⟩
  · exact skips_extractOne quiet second
  · exact skips_comparePair compared

theorem compare_valid {source candidate : ClaimEvidenceSet} {evidence : ClaimComparisonEvidence}
    (compared : ClaimEvidenceComparator.compare source candidate = .ok evidence) : evidence.validate = .ok () := by
  obtain ⟨_, _, compared⟩ := bind_eq_ok.mp compared
  obtain ⟨_, _, compared⟩ := bind_eq_ok.mp compared
  obtain ⟨_, _, compared⟩ := bind_eq_ok.mp compared
  obtain ⟨_, _, compared⟩ := bind_eq_ok.mp compared
  split at compared
  next made =>
    cases compared
    obtain ⟨_, valid, rfl⟩ := map_eq_ok.mp made
    exact valid
  · cases compared

theorem extract_comparison {backend : InferenceBackend} {context : ClaimExtractionContext} {position : Nat} {pair : ClaimExtractionPair}
    {comparison : ClaimComparisonEvidence} (extracted : extract parsePayload backend request context position = .ok pair)
    (compared : pair.comparison = some comparison) : comparison.validate = .ok () := by
  obtain ⟨_, _, extracted⟩ := bind_eq_ok.mp extracted
  obtain ⟨_, _, extracted⟩ := bind_eq_ok.mp extracted
  obtain ⟨_, _, extracted⟩ := bind_eq_ok.mp extracted
  split at extracted
  · cases extracted
  obtain ⟨_, _, extracted⟩ := bind_eq_ok.mp extracted
  obtain ⟨_, _, extracted⟩ := bind_eq_ok.mp extracted
  obtain ⟨_, _, extracted⟩ := bind_eq_ok.mp extracted
  simp only [comparePair] at extracted
  split at extracted
  · obtain ⟨evidence, made, extracted⟩ := bind_eq_ok.mp extracted
    cases extracted
    cases compared
    exact compare_valid (mapError_eq_ok.mp made)
  · cases extracted
    cases compared

end ClaimExtraction

namespace ClaimShadowJoin

variable {backend : InferenceBackend} {binding : ClaimShadowJoinBinding} {unitId : RewriteUnitId} {source : Text}

/-- The join for one candidate fails exactly when its request exceeds a limit. -/
theorem prepare_cases (parsePayload : Text → Option ClaimPayload) (quiet : backend.Quiet) (wellFormed : binding.WellFormed)
    (candidate : Text) (position : Nat) :
    ((∃ disposition, prepare parsePayload backend binding unitId source candidate .never position = .ok disposition) ∧
        binding.Admits unitId source candidate) ∨
      (∃ fault, prepare parsePayload backend binding unitId source candidate .never position = .error fault ∧
        ClaimExtraction.Exceeds fault) ∧ ¬ binding.Admits unitId source candidate := by
  rcases validateRequest_cases (binding.extractionRequest unitId source candidate) wellFormed with
    ⟨valid, admits⟩ | ⟨⟨fault, invalid, exceeds⟩, large⟩
  · refine Or.inl ⟨?_, admits⟩
    simp only [prepare]
    cases extracted : extract parsePayload backend (binding.extractionRequest unitId source candidate) .never position with
    | error fault => exact ⟨.skipped, by simp only [skips_extract quiet valid extracted, if_true]⟩
    | ok pair =>
      dsimp only
      split
      next comparison compared =>
        have sound := extract_comparison extracted compared
        exact ⟨.recorded ⟨comparison, sound⟩, by simp [PreparedClaimShadow.fromComparison, sound, Except.map]⟩
      · exact ⟨.skipped, rfl⟩
  · refine Or.inr ⟨⟨fault, ?_, exceeds⟩, large⟩
    have failed : extract parsePayload backend (binding.extractionRequest unitId source candidate) .never position =
        .error fault := by
      simp only [extract, invalid]
      rfl
    simp only [prepare, failed]
    rcases exceeds with rfl | ⟨_, _, rfl⟩ <;> rfl

/-- The join over all candidates fails exactly when one of them exceeds a limit. -/
theorem prepareForCandidates_cases (parsePayload : Text → Option ClaimPayload) (quiet : backend.Quiet) (wellFormed : binding.WellFormed)
    (unitId : RewriteUnitId) (source : Text) (candidates : List Text) (position : Nat) :
    ((∃ shadows, prepareForCandidates parsePayload backend binding unitId source .never position candidates = .ok shadows) ∧
        ∀ candidate ∈ candidates, binding.Admits unitId source candidate) ∨
      (∃ fault, prepareForCandidates parsePayload backend binding unitId source .never position candidates = .error fault ∧
        ClaimExtraction.Exceeds fault) ∧ ¬ ∀ candidate ∈ candidates, binding.Admits unitId source candidate := by
  induction candidates generalizing position with
  | nil => exact Or.inl ⟨⟨[], rfl⟩, by simp⟩
  | cons candidate candidates ih =>
    simp only [prepareForCandidates, List.forall_mem_cons]
    rcases prepare_cases parsePayload quiet wellFormed candidate position with
      ⟨⟨disposition, prepared⟩, admits⟩ | ⟨⟨fault, failed, exceeds⟩, large⟩
    · rcases ih (position + 1) with ⟨⟨shadows, rest⟩, all⟩ | ⟨⟨fault, failed, exceeds⟩, large⟩
      · rw [prepared, rest]
        refine Or.inl ⟨?_, admits, all⟩
        cases disposition with
        | recorded shadow => exact ⟨shadow :: shadows, rfl⟩
        | skipped => exact ⟨shadows, rfl⟩
      · rw [prepared, failed]
        exact Or.inr ⟨⟨fault, rfl, exceeds⟩, fun both => large both.2⟩
    · rw [failed]
      exact Or.inr ⟨⟨fault, rfl, exceeds⟩, fun both => large both.1⟩

end ClaimShadowJoin

end Retonr
