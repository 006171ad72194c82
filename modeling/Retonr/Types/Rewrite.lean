import Retonr.Lib.Binary32
import Retonr.Types.Document

/-! Rewrite options, generated candidates, and the outcomes a run may report. -/

namespace Retonr

inductive RewriteMode where
  | literal
  | pure
  | balanced
  | strong
  deriving DecidableEq

inductive Atomicity where
  | document
  | unit
  | region
  deriving DecidableEq

inductive EditLevel where
  | touchUp
  | voicePass
  | rewrite
  | reconstruct

structure CharacterBudget where
  (minCharacters maxCharacters : Option Nat)
  maxExpansionPercent : Option UInt8

structure LineBudget where
  maxLines : Option Nat
  preserveLineCount : Bool

structure LayoutConstraints where
  characterBudget : Option CharacterBudget
  lineBudget : Option LineBudget

structure RewriteOptions where
  mode : RewriteMode
  atomicity : Atomicity
  protectedTerms : List Text
  minimumSemanticConfidence : Binary32
  editLevel : Option EditLevel
  layout : Option LayoutConstraints

namespace RewriteOptions

/-- The default confidence bound, 0.95, in single precision. -/
def defaultSemanticConfidence : Binary32 := ⟨0x3F733333⟩

def default : RewriteOptions where
  mode := .balanced
  atomicity := .document
  protectedTerms := []
  minimumSemanticConfidence := defaultSemanticConfidence
  editLevel := none
  layout := none

end RewriteOptions

inductive CandidateTextKind where
  | masked
  | raw
  deriving DecidableEq

structure CandidateRank where
  (style channel fluency : Binary32)
  (editorialPenalty editCost : Nat)

namespace CandidateRank

def default : CandidateRank := ⟨.zero, .zero, .zero, 0, 0⟩

end CandidateRank

structure GeneratedCandidate where
  id : CandidateId
  unitId : RewriteUnitId
  text : Text
  textKind : CandidateTextKind
  rank : CandidateRank

structure AcceptedEdit where
  unitId : RewriteUnitId
  replacement : Text

inductive RewriteStatus where
  | rewritten
  | unchangedNoEligibleContent
  | abstained
  | failed
  | unchangedIdentical
  deriving DecidableEq

inductive ReasonCode where
  | noCandidate
  | invalidCandidate
  | sentinelIntegrity
  | protectedValueChanged
  | structureChanged
  | unsafeText
  | characterBudgetExceeded
  | lineBudgetExceeded
  | semanticMismatch
  | semanticUncertain
  | reassemblyVerification
  | cancelled
  | unsupportedAtomicity
  deriving DecidableEq

end Retonr
