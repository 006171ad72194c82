import Retonr.App.CandidateCheck
import Retonr.Proofs.EngineRuns
import Retonr.Proofs.Masking

/-! What an accepted edit keeps of the typed literals. A raw candidate is recounted before it
is masked, a masked one is not, so the law rests on the recount for raw candidates only. -/

namespace Retonr.RewriteEngine
open Text Gates Retonr.Except List

variable {engine : RewriteEngine} {options : RewriteOptions} {unit : RewriteUnit} {plan : ProtectionPlan}
  {candidate : GeneratedCandidate}

theorem assessMeaning_restored (restored : Text) (gates : List GateResult) :
    (engine.assessMeaning unit candidate options restored gates).candidate.restored = restored := by
  simp only [assessMeaning]
  split <;> rfl

theorem assessRestored_restored (restored : Text) (gates : List GateResult) :
    (engine.assessRestored unit candidate options restored gates).candidate.restored = restored := by
  simp only [assessRestored]
  split
  · rfl
  split
  · exact assessMeaning_restored restored _
  split
  · rfl
  · exact assessMeaning_restored restored _

/-- An eligible candidate is proposed with exactly the text it stands for. -/
theorem restoredForm_of_eligible (eligible : (engine.assessCandidate unit candidate plan options).assessment.eligible = true) :
    restoredForm engine.environment.unicode plan candidate = .ok (engine.assessCandidate unit candidate plan options).candidate.restored := by
  simp only [assessCandidate] at eligible ⊢
  split at eligible
  next rejected =>
    simp only [validateCandidateMetadata] at rejected
    split at rejected
    · cases rejected
      cases eligible
    split at rejected
    · cases rejected
      cases eligible
    · cases rejected
  next gates passed =>
    split at eligible
    · cases eligible
    next masked asMasked =>
      split at eligible
      · cases eligible
      next restored restores =>
        rw [assessRestored_restored, restoredForm, asMasked]
        exact restores

/-- A raw candidate that can be masked has the typed literals of the source. -/
theorem typedCounts_of_raw {unicode : Unicode} {source restored : Text} {terms : List Text}
    (built : ProtectionPlan.build unicode source terms = .ok plan) (raw : candidate.textKind = .raw)
    (restores : restoredForm unicode plan candidate = .ok restored) :
    Extract.typedCounts unicode restored = Extract.typedCounts unicode source := by
  obtain ⟨issued, counted, _⟩ := build_cases built
  obtain ⟨masked, asMasked, back⟩ := bind_eq_ok.mp restores
  simp only [maskedForm, raw] at asMasked
  rw [(issued.mask_restore asMasked).2] at back
  cases back
  rw [counted]
  exact (maskRawCandidate_cases asMasked).2.2.1

/-- The recount `maskRawCandidate` makes of a raw candidate's typed literals. -/
def Recounts (unicode : Unicode) (plan : ProtectionPlan) (text : Text) : Prop :=
  (Extract.selectedTypedSpans unicode text).map (Extract.surfacesOf text) = .ok plan.typedCounts

/-- A generator that answers every request with one masked candidate. -/
def maskedGenerator (text : Text) : CandidateGenerator where
  generate request := .ok [{ id := CandidateId.new request.unitId 0, unitId := request.unitId, text, textKind := .masked, rank := .default }]

def literalOptions : RewriteOptions := { RewriteOptions.default with mode := .literal }

/-- A plain-text engine that is offered one masked candidate in literal mode. -/
def maskedEngine (parsed : ParsedTextDocument) (text : Text) : RewriteEngine :=
  CandidateCheck.plainTextEngine ⟨Unicode.ascii, fun _ => 0⟩ parsed (maskedGenerator text) none

def spacedSentinel : Text := "Profit: \x7b\x7bPROTECTED_NUMBER_0001\x7d\x7d".toList

end Retonr.RewriteEngine
