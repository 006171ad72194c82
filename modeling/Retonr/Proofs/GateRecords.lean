import Retonr.Engine.Engine

/-! The gates the engine builds satisfy the evidence contract, whatever the ports return. -/

namespace Retonr
open Text Gates Retonr.Except GateResult SpanReport List

theorem GateEvidence.validate_iff (evidence : GateEvidence) : evidence.validate = .ok () ↔ validateCode evidence.code = .ok () ∧
      (evidence.message.isEmpty || maxGateEvidenceMessageBytes < byteLen evidence.message ||
        evidence.message.any TextSafety.isControl) = false ∧ validateGateDetails evidence.details = .ok () := by
  simp only [GateEvidence.validate, bind_eq_ok]
  constructor
  · rintro ⟨_, code, rest⟩
    split at rest
    · cases rest
    next message => exact ⟨code, by simpa using message, rest⟩
  · rintro ⟨code, message, details⟩
    exact ⟨(), code, by simp [message, details]⟩

theorem GateResult.validate_iff (gate : GateResult) :
    gate.validate = .ok () ↔ validateCode gate.gateId = .ok () ∧ validateVersion gate.gateVersion = .ok () ∧
      validateConfidence gate.confidence = .ok () ∧ gate.evidence.length ≤ maxSemanticEvidenceItems ∧
      ∀ evidence ∈ gate.evidence, evidence.validate = .ok () := by
  simp only [validate, bind_eq_ok]
  constructor
  · rintro ⟨_, code, _, version, _, confidence, rest⟩
    split at rest
    · cases rest
    next few => exact ⟨code, version, confidence, Nat.le_of_not_lt few, forM_eq_ok.mp rest⟩
  · rintro ⟨code, version, confidence, few, each⟩
    refine ⟨(), code, (), version, (), confidence, ?_⟩
    rw [if_neg (Nat.not_lt.mpr few)]
    exact forM_eq_ok.mpr each

private theorem validateVersion_one : validateVersion ['1'] = .ok () := rfl

private theorem validateConfidence_none : validateConfidence none = .ok () := rfl

theorem GateResult.pass_valid {gateId : Text} (code : validateCode gateId = .ok ()) : (pass gateId).validate = .ok () := by
  rw [validate_iff]
  exact ⟨code, validateVersion_one, validateConfidence_none, Nat.zero_le _, by simp [pass]⟩

theorem GateResult.fail_valid {gateId code message : Text} (identity : validateCode gateId = .ok ())
    (finding : GateEvidence.validate ⟨code, message, none⟩ = .ok ()) : (fail gateId code message).validate = .ok () := by
  rw [validate_iff]
  refine ⟨identity, validateVersion_one, validateConfidence_none, by simp [fail, maxSemanticEvidenceItems], ?_⟩
  simpa [fail] using finding

/-- What adding details to a gate leaves alone; the gate stays valid if it was. -/
structure KeepsVerdict (gate located : GateResult) : Prop where
  status : located.status = gate.status
  severity : located.severity = gate.severity
  version : located.gateVersion = gate.gateVersion
  valid : gate.validate = .ok () → located.validate = .ok ()

theorem attachSpanDetails_keeps (gate : GateResult) {details : Option GateEvidenceDetails} (sound : validateGateDetails details = .ok ()) :
    KeepsVerdict gate (attachSpanDetails gate details) := by
  unfold attachSpanDetails
  split
  next found first rest shape =>
    refine ⟨rfl, rfl, rfl, fun valid => ?_⟩
    rw [validate_iff] at valid ⊢
    obtain ⟨code, version, confidence, few, each⟩ := valid
    rw [shape] at few each
    refine ⟨code, version, confidence, few, ?_⟩
    simp only [forall_mem_cons] at each ⊢
    obtain ⟨firstCode, message, _⟩ := (GateEvidence.validate_iff first).mp each.1
    exact ⟨(GateEvidence.validate_iff _).mpr ⟨firstCode, message, sound⟩, each.2⟩
  · exact ⟨rfl, rfl, rfl, id⟩

theorem attachIf_keeps (gate : GateResult) {details : Option GateEvidenceDetails} (sound : validateGateDetails details = .ok ())
    (attach : Bool) : KeepsVerdict gate (if attach then attachSpanDetails gate details else gate) := by
  split
  · exact attachSpanDetails_keeps gate sound
  · exact ⟨rfl, rfl, rfl, id⟩

theorem SpanReport.details_valid (failures : List SpanFailure) : validateGateDetails (details failures) = .ok () := by
  unfold details
  split
  · rfl
  split
  next evidence built =>
    obtain ⟨_, valid, rfl⟩ := map_eq_ok.mp built
    exact ((GateEvidence.validate_iff _).mp valid).2.2
  · rfl

theorem SpanReport.protectionDetails_valid (unicode : Unicode) (source candidate : Text) (terms : List Text) :
    validateGateDetails (protectionDetails unicode source candidate terms) = .ok () := by
  unfold protectionDetails
  split
  · exact details_valid _
  · rfl

theorem SpanReport.literalTokenDetails_valid (unicode : Unicode) (source candidate : Text) :
    validateGateDetails (literalTokenDetails unicode source candidate) = .ok () := by
  unfold literalTokenDetails
  split
  · exact details_valid _
  · exact details_valid _
  · exact details_valid _
  · rfl

theorem protectionFailure_valid {gateId : Text} (identity : validateCode gateId = .ok ()) (fault : ProtectionError) :
    (protectionFailure gateId fault).validate = .ok () := by
  apply fail_valid identity
  cases fault <;> rfl

theorem annotateStructureGate_keeps (gate : GateResult) (assessment : StructureAssessment) (source restored : Text) :
    KeepsVerdict gate (annotateStructureGate gate assessment source restored) := by
  cases assessment with
  | preserved => exact ⟨rfl, rfl, rfl, id⟩
  | unsafeText => exact attachSpanDetails_keeps gate (details_valid _)
  | changed => exact attachSpanDetails_keeps gate (details_valid _)

theorem retainedStructureGate_valid (assessment : StructureAssessment) : (retainedStructureGate assessment).1.validate = .ok () := by
  cases assessment with
  | preserved => exact pass_valid rfl
  | unsafeText => exact fail_valid rfl rfl
  | changed => exact fail_valid rfl rfl

theorem retainedStructureGate_rejects {assessment : StructureAssessment} (altered : assessment ≠ .preserved) :
    (retainedStructureGate assessment).1.severity = .error ∧ (retainedStructureGate assessment).1.status = .fail := by
  cases assessment with
  | preserved => exact absurd rfl altered
  | unsafeText => exact ⟨rfl, rfl⟩
  | changed => exact ⟨rfl, rfl⟩

theorem validateLayoutConstraints_valid {unit : RewriteUnit} {restored : Text} {options : RewriteOptions} {gate : GateResult}
    {reason : ReasonCode} (checked : validateLayoutConstraints unit restored options = some (gate, reason)) :
    gate.validate = .ok () ∧ gate.severity = .error ∧ (gate.status = .pass ∨ gate.status = .fail) := by
  obtain ⟨layout, _, shape⟩ := Option.map_eq_some_iff.mp checked
  split at shape
  next code message found =>
    cases shape
    obtain ⟨budget, _, fault⟩ := Option.bind_eq_some_iff.mp found
    refine ⟨fail_valid rfl ?_, rfl, Or.inr rfl⟩
    simp only [characterBudgetFault] at fault
    split at fault
    · cases fault; rfl
    split at fault
    · cases fault; rfl
    split at fault
    · cases fault; rfl
    · cases fault
  split at shape
  next code message found =>
    cases shape
    obtain ⟨budget, _, fault⟩ := Option.bind_eq_some_iff.mp found
    refine ⟨fail_valid rfl ?_, rfl, Or.inr rfl⟩
    simp only [lineBudgetFault] at fault
    split at fault
    · cases fault; rfl
    split at fault
    · cases fault; rfl
    · cases fault
  · cases shape
    exact ⟨pass_valid rfl, rfl, Or.inl rfl⟩

private theorem saturatingCount_eq {values : List ProtectedValue} (few : values.length ≤ maxProtectedOccurrences)
    (counted : ProtectedValue → Bool) : saturatingCount values counted = values.countP counted := by
  have bound : values.countP counted ≤ values.length := countP_le_length
  simp only [saturatingCount, maxProtectedOccurrences, u32Limit] at *
  omega

theorem protectedValuesPass_valid {plan : ProtectionPlan} (few : plan.values.length ≤ maxProtectedOccurrences) :
    (protectedValuesPass plan).validate = .ok () := by
  have kinds : ∀ values : List ProtectedValue,
      values.countP (·.kind == .declaredTerm) + values.countP (·.kind == .url) + values.countP (·.kind == .email) +
        values.countP (·.kind == .number) = values.length := by
    intro values
    induction values with
    | nil => rfl
    | cons value values ih =>
      simp only [countP_cons, length_cons]
      cases value.kind <;> simp <;> omega
  have total := kinds plan.values
  have code : validateCode "invariant_counts".toList = .ok () := rfl
  have message : ("exact protected invariant counts were preserved".toList.isEmpty ||
      maxGateEvidenceMessageBytes < byteLen "exact protected invariant counts were preserved".toList ||
      "exact protected invariant counts were preserved".toList.any TextSafety.isControl) = false := rfl
  have identity : validateCode protectedGate = .ok () := rfl
  rw [validate_iff]
  refine ⟨identity, validateVersion_one, validateConfidence_none, by simp [protectedValuesPass, maxSemanticEvidenceItems], ?_⟩
  simp only [protectedValuesPass, forall_mem_singleton]
  refine (GateEvidence.validate_iff _).mpr ⟨code, message, ?_⟩
  simp only [validateGateDetails, InvariantEvidenceSummary.validate, saturatingCount_eq few, countP_true]
  rw [if_neg]
  · rfl
  · simp only [u32Limit, maxProtectedOccurrences] at *
    omega

theorem shadowGate_info {observer : ClaimShadowObserver} {unitId : RewriteUnitId} {source candidate : Text} {gate : GateResult}
    (observed : ClaimShadow.shadowGate observer unitId source candidate = some gate) : gate.severity = .info ∧ gate.validate = .ok () := by
  have fallback : ClaimShadow.mismatchedShadowGate.severity = .info ∧ ClaimShadow.mismatchedShadowGate.validate = .ok () := ⟨rfl, rfl⟩
  obtain ⟨comparison, _, rfl⟩ := Option.map_eq_some_iff.mp observed
  simp only [ClaimShadow.gateFromComparison]
  split
  · exact fallback
  split
  next valid => exact ⟨rfl, valid⟩
  · exact fallback

theorem attachClaimShadow_info (engine : RewriteEngine) (unitId : RewriteUnitId) (source candidate : Text) :
    ∃ shadow : List GateResult, (∀ gates, engine.attachClaimShadow unitId source candidate gates = gates ++ shadow) ∧
      shadow.length ≤ 1 ∧ ∀ gate ∈ shadow, gate.severity = .info ∧ gate.validate = .ok () := by
  refine ⟨_, fun gates => rfl, ?_, ?_⟩
  · cases engine.claimShadow.bind fun observer => ClaimShadow.shadowGate observer unitId source candidate <;> simp
  · intro gate member
    obtain ⟨observer, _, observed⟩ := Option.bind_eq_some_iff.mp (Option.mem_toList.mp member)
    exact shadowGate_info observed

end Retonr
