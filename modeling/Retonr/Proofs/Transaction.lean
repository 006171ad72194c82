import Retonr.Proofs.EngineRuns
import Retonr.Proofs.ShadowAuthority
import Retonr.Proofs.TextAdapter

/-! A plain-text transaction is atomic: it returns the original bytes exactly, or one
accepted replacement behind the original byte order mark, and a record that says which. -/

namespace Retonr.CandidateCheck
open Text Retonr.Except TextAdapter

variable {environment : Environment} {input : Bytes} {parsed : ParsedTextDocument} {generator : CandidateGenerator}
  {options : RewriteOptions} {claimShadow : Option ClaimShadowObserver} {cancellation : CancellationToken}

/-- The result that keeps the given bytes and decision. -/
def resultOf (parsed : ParsedTextDocument) (outcome : EngineOutcome) (output : Bytes) (status : RewriteStatus)
    (reason : Option ReasonCode) (selectedCandidates : List CandidateId) : CandidateCheckResult :=
  ⟨output, .new parsed.document.documentId parsed.document.sourceDigest (Digest.sha256 output) status reason selectedCandidates
    outcome.assessments⟩

theorem finishTransaction_cases (parsed : ParsedTextDocument) (outcome : EngineOutcome) (proposed : Bytes) :
    finishTransaction parsed outcome proposed = resultOf parsed outcome proposed outcome.status outcome.reason outcome.selectedCandidates ∨
      finishTransaction parsed outcome proposed = resultOf parsed outcome parsed.original .abstained (some .reassemblyVerification) [] := by
  simp only [finishTransaction]
  split
  · exact Or.inl rfl
  · exact Or.inr rfl

theorem finishTransaction_unedited {outcome : EngineOutcome} {proposed : Bytes} (unedited : outcome.edits = [])
    (applied : apply parsed outcome.edits = .ok proposed) : finishTransaction parsed outcome proposed =
      resultOf parsed outcome parsed.original outcome.status outcome.reason outcome.selectedCandidates := by
  rw [unedited] at applied
  cases applied
  have valid : (verify parsed parsed.original outcome.edits).valid = true := by simp [verify, unedited]
  simp only [finishTransaction, valid, if_true]
  rfl

/-- A decided run over at most one unit makes no edit, or one that differs from the unit's text. -/
theorem edits_of_progressed {engine : RewriteEngine} {units : List RewriteUnit} {state : RewriteEngine.RunState}
    (progressed : engine.Progressed options units state) (few : units.length ≤ 1) :
    state.edits = [] ∨ ∃ unit replacement, units = [unit] ∧ replacement ≠ unit.text ∧ state.edits = [⟨unit.id, replacement⟩] := by
  obtain ⟨decisions, each, _, edits⟩ := progressed.decided
  match units, decisions, each, few with
  | [], _, .nil, _ => exact Or.inl edits
  | [unit], [(_, none)], _, _ => exact Or.inl edits
  | [unit], [(_, some replacement)], .cons chosen .nil, _ =>
    obtain ⟨_, _, _, _, _, _, made⟩ := chosen
    split at made
    next differs =>
      cases made
      exact Or.inr ⟨unit, _, rfl, differs, edits⟩
    · cases made

/-- A run over at most one unit either makes no edit and is not reported as a rewrite, or is a
rewrite with one edit; an abstention has a reason and selects nothing. -/
theorem outcome_cases {engine : RewriteEngine} {units : List RewriteUnit} {outcome : EngineOutcome}
    (finished : engine.Finished options units outcome) (few : units.length ≤ 1) :
    (outcome.status = .abstained → outcome.selectedCandidates = [] ∧ outcome.reason.isSome = true) ∧
      ((outcome.edits = [] ∧ outcome.status ≠ .rewritten) ∨
        ∃ unit replacement, units = [unit] ∧ replacement ≠ unit.text ∧ outcome.edits = [⟨unit.id, replacement⟩] ∧
          outcome.status = .rewritten ∧ outcome.reason = none) := by
  cases finished with
  | abstained reason assessments recorded => exact ⟨fun _ => ⟨rfl, rfl⟩, Or.inl ⟨rfl, nofun⟩⟩
  | noContent empty => exact ⟨nofun, Or.inl ⟨rfl, nofun⟩⟩
  | decided state progressed =>
    rcases edits_of_progressed progressed few with unedited | ⟨unit, replacement, single, differs, edited⟩
    · simp [unedited]
    · refine ⟨by simp [edited], Or.inr ⟨unit, replacement, single, differs, edited, by simp [edited], rfl⟩⟩

theorem few_units (accepted : parse input = .ok parsed) : parsed.document.rewriteUnits.length ≤ 1 := by
  obtain ⟨_, _, _, _, _, describes, _⟩ := parse_sound accepted
  rw [← List.length_map RewriteUnit.text, describes.units]
  split <;> simp

/-- Either the record says the text was rewritten and the output is the original mark followed by the
one accepted replacement, or it says otherwise and the output is the input. An abstention has a
reason and selects nothing, and the record's digest is that of the output. -/
theorem plain_text_transaction_is_atomic {result : CandidateCheckResult} (accepted : parse input = .ok parsed)
    (done : runPlainTextTransaction environment parsed generator options claimShadow cancellation = .ok result) :
    ((result.record.status = .rewritten ∧ result.record.reason = none ∧
        ∃ outcome unit replacement, (plainTextEngine environment parsed generator claimShadow).run parsed.document options cancellation =
            .ok outcome ∧ parsed.document.rewriteUnits = [unit] ∧ outcome.edits = [⟨unit.id, replacement⟩] ∧
          replacement ≠ unit.text ∧ result.output = bomBytes parsed.metadata.hasUtf8Bom ++ encode replacement) ∨
      (result.record.status ≠ .rewritten ∧ result.output = input)) ∧
    (result.record.status = .abstained → result.record.selectedCandidates = [] ∧ result.record.reason.isSome = true) ∧
    result.record.outputDigest = Digest.sha256 result.output := by
  obtain ⟨_, original, _, hasUtf8Bom, text, describes, _⟩ := parse_sound accepted
  simp only [runPlainTextTransaction] at done
  split at done
  · cases done
  next outcome ran =>
    split at done
    · cases done
    next proposed applied =>
      cases done
      obtain ⟨abstains, ⟨unedited, other⟩ | ⟨unit, replacement, single, differs, edited, rewritten, plain⟩⟩ :=
        outcome_cases (RewriteEngine.run_finished ran).2.2 (few_units accepted)
      · rw [finishTransaction_unedited unedited applied]
        exact ⟨Or.inr ⟨other, original⟩, abstains, rfl⟩
      · have output : proposed = bomBytes parsed.metadata.hasUtf8Bom ++ encode replacement := by
          rw [edited, apply_single single, describes.take_original, ← describes.marked] at applied
          cases applied
          rfl
        rcases finishTransaction_cases parsed outcome proposed with kept | withdrawn
        · rw [kept]
          exact ⟨Or.inl ⟨rewritten, plain, outcome, unit, replacement, ran, single, edited, differs, output⟩, abstains, rfl⟩
        · rw [withdrawn]
          exact ⟨Or.inr ⟨nofun, original⟩, fun _ => ⟨rfl, rfl⟩, rfl⟩

theorem plain_text_transaction_is_atomic_marked :
    ∃ parsed result replacement, parse (utf8Bom ++ encode ['H', 'i']) = .ok parsed ∧
      runPlainTextTransaction ⟨Unicode.ascii, fun _ => 0⟩ parsed (providedCandidateGenerator [['H', 'i', '!']] false)
        { RewriteOptions.default with mode := .literal } none .never = .ok result ∧
      result.output = bomBytes parsed.metadata.hasUtf8Bom ++ encode replacement ∧
      result.record.outputDigest = Digest.sha256 result.output := by
  have computed : (parse (utf8Bom ++ encode ['H', 'i'])).toOption.map (fun parsed =>
      (runPlainTextTransaction ⟨Unicode.ascii, fun _ => 0⟩ parsed (providedCandidateGenerator [['H', 'i', '!']] false)
        { RewriteOptions.default with mode := .literal } none .never).toOption.map fun result => result.record.status) =
      some (some .rewritten) := by
    decide +kernel
  obtain ⟨parsed, accepted, facts⟩ := map_toOption_eq_some.mp computed
  obtain ⟨result, done, rewritten⟩ := map_toOption_eq_some.mp facts
  obtain ⟨⟨_, _, _, _, replacement, _, _, _, _, output⟩ | ⟨other, _⟩, _, digest⟩ := plain_text_transaction_is_atomic accepted done
  · exact ⟨parsed, result, replacement, accepted, done, output, digest⟩
  · exact absurd rewritten other

/-- Two transactions with the same bytes, status, reason and selection. -/
structure SameTransaction (left right : CandidateCheckResult) : Prop where
  output : left.output = right.output
  status : left.record.status = right.record.status
  reason : left.record.reason = right.record.reason
  selected : left.record.selectedCandidates = right.record.selectedCandidates

theorem SameTransaction.refl (result : CandidateCheckResult) : SameTransaction result result := ⟨rfl, rfl, rfl, rfl⟩

theorem finishTransaction_same {records : List CandidateAssessment → List CandidateAssessment → Prop} {left right : EngineOutcome}
    (same : RewriteEngine.SameDecision records left right) (proposed : Bytes) :
    SameTransaction (finishTransaction parsed left proposed) (finishTransaction parsed right proposed) := by
  simp only [finishTransaction, same.edits, same.status, same.reason, same.selected]
  split
  · exact ⟨rfl, rfl, rfl, rfl⟩
  · exact ⟨rfl, rfl, rfl, rfl⟩

/-- An observer changes nothing a transaction returns but the records of the candidates. -/
theorem runPlainTextTransaction_observed (environment : Environment) (parsed : ParsedTextDocument) (generator : CandidateGenerator)
    (options : RewriteOptions) (claimShadow : Option ClaimShadowObserver) (cancellation : CancellationToken) :
    Related Eq SameTransaction (runPlainTextTransaction environment parsed generator options none cancellation)
      (runPlainTextTransaction environment parsed generator options claimShadow cancellation) := by
  have ran := (plainTextEngine environment parsed generator claimShadow).run_without_shadow options cancellation parsed.document
  have plain : (plainTextEngine environment parsed generator claimShadow).withoutClaimShadow =
      plainTextEngine environment parsed generator none := rfl
  rw [plain] at ran
  simp only [runPlainTextTransaction]
  generalize (plainTextEngine environment parsed generator none).run parsed.document options cancellation = answer at ran ⊢
  generalize (plainTextEngine environment parsed generator claimShadow).run parsed.document options cancellation = other at ran ⊢
  cases ran with
  | error same => exact .error (by rw [same])
  | ok same =>
    simp only [same.edits]
    split
    · exact .error rfl
    · exact .ok (finishTransaction_same same _)

/-- So the check of a supplied candidate decides alike with and without an observer. -/
theorem checkWithClaimShadow_observed (environment : Environment) (request : CandidateCheckRequest) (cancellation : CancellationToken)
    (cancelled : Bool) (claimShadow : Option ClaimShadowObserver) :
    Related Eq SameTransaction (checkWithClaimShadow environment request cancellation cancelled none)
      (checkWithClaimShadow environment request cancellation cancelled claimShadow) := by
  simp only [checkWithClaimShadow]
  split
  · exact .error rfl
  split
  · exact .error rfl
  · exact runPlainTextTransaction_observed environment _ _ (checkOptions request) claimShadow cancellation

/-- A transaction over a parsed text with supported options always returns a result. -/
theorem runPlainTextTransaction_answers (accepted : parse input = .ok parsed)
    (answerable : (plainTextEngine environment parsed generator claimShadow).Answerable options parsed.document.rewriteUnits)
    (supported : Policy.validateRewriteOptions options = .ok ()) (cancellation : CancellationToken) :
    ∃ result, runPlainTextTransaction environment parsed generator options claimShadow cancellation = .ok result := by
  obtain ⟨_, _, _, _, _, describes, _⟩ := parse_sound accepted
  obtain ⟨outcome, ran⟩ := RewriteEngine.run_answers answerable supported describes.valid cancellation
  simp only [runPlainTextTransaction, ran]
  obtain ⟨_, ⟨unedited, _⟩ | ⟨unit, replacement, single, _, edited, _⟩⟩ :=
    outcome_cases (RewriteEngine.run_finished ran).2.2 (few_units accepted)
  · rw [unedited]
    exact ⟨_, rfl⟩
  · rw [edited, apply_single single]
    exact ⟨_, rfl⟩

end Retonr.CandidateCheck
