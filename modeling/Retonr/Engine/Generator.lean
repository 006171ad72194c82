import Retonr.Engine.Policy

/-! The candidate generation port, and the two generators that hand over candidates
made before the run. -/

namespace Retonr

structure GenerationRequest where
  unitId : RewriteUnitId
  maskedSource : Text
  protectedValues : List ProtectedValue
  mode : RewriteMode

/-- The port a generator implements; its answer covers every way it may react to cancellation. -/
structure CandidateGenerator where
  generate : GenerationRequest → Except GenerationError (List GeneratedCandidate)

/-- Presents restored texts of the caller as raw candidates. -/
def providedCandidateGenerator (candidates : List Text) (cancelled : Bool) : CandidateGenerator where
  generate request :=
    if cancelled then .error .cancelled
    else .ok (candidates.zipIdx.map fun (text, ordinal) =>
      { id := CandidateId.new request.unitId ordinal, unitId := request.unitId, text, textKind := .raw, rank := .default })

/-- Presents candidates that are already constructed; the engine still trusts none of them. -/
def preparedCandidateGenerator (candidates : List GeneratedCandidate) (cancelled : Bool) : CandidateGenerator where
  generate _ := if cancelled then .error .cancelled else .ok candidates

end Retonr
