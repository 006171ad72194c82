import Retonr.Engine.Protection
import Retonr.Lib.MaxBy
import Retonr.Types.Rewrite

/-! Which options and candidate batches the engine accepts, which rejection reason it
reports, and which eligible candidate it selects. -/

namespace Retonr
open Text

def maxGeneratedCandidates : Nat := 16

def maxGeneratedTextBytes : Nat := 16 * 1024 * 1024

inductive GenerationError where
  | cancelled
  | provider (message : Text)
  deriving DecidableEq

inductive EngineError where
  | invalidSemanticConfidence
  | invalidProtectedTerms
  | invalidLayoutBudget
  | invalidDocument (fault : DocumentError)
  | generation (fault : GenerationError)
  | protection (fault : ProtectionError)
  deriving DecidableEq

namespace Policy

/-- Finite and between zero and one. -/
def unitScore (score : Binary32) : Bool := score.isFinite && Binary32.within .zero .one score

def layoutBudgetIsValid (options : RewriteOptions) : Bool :=
  match options.layout.bind LayoutConstraints.characterBudget with
  | some ⟨some low, some high, _⟩ => low ≤ high
  | _ => true

def validateRewriteOptions (options : RewriteOptions) : Except EngineError Unit :=
  if unitScore options.minimumSemanticConfidence = false then .error .invalidSemanticConfidence
  else if protectedTermsAreValid options.protectedTerms = false then .error .invalidProtectedTerms
  else if layoutBudgetIsValid options = false then .error .invalidLayoutBudget
  else .ok ()

def candidateRankIsValid (rank : CandidateRank) : Bool := [rank.style, rank.channel, rank.fluency].all unitScore

def candidateContractIsValid (candidate : GeneratedCandidate) : Bool :=
  candidate.id.isScopedTo candidate.unitId && byteLen candidate.text ≤ maxGeneratedTextBytes &&
    candidateRankIsValid candidate.rank

/-- Every candidate targets the unit, is scoped to it, and has an identity of its own. -/
def candidateBatchIdentityIsValid (unitId : RewriteUnitId) (candidates : List GeneratedCandidate) : Bool :=
  (candidates.all fun candidate => candidate.unitId == unitId && candidate.id.isScopedTo unitId) &&
    (candidates.map GeneratedCandidate.id).Nodup

def candidateCountReason (count : Nat) : Option ReasonCode :=
  if count = 0 then some .noCandidate
  else if maxGeneratedCandidates < count then some .invalidCandidate
  else none

def candidateBatchReason (unitId : RewriteUnitId) (candidates : List GeneratedCandidate) : Option ReasonCode :=
  (candidateCountReason candidates.length).or
    (if candidateBatchIdentityIsValid unitId candidates then none else some .invalidCandidate)

def reasonPriority : ReasonCode → Nat
  | .sentinelIntegrity => 0
  | .protectedValueChanged => 1
  | .unsafeText => 2
  | .structureChanged => 3
  | .characterBudgetExceeded => 4
  | .lineBudgetExceeded => 5
  | .semanticMismatch => 6
  | .semanticUncertain => 7
  | .invalidCandidate => 8
  | .noCandidate => 9
  | .reassemblyVerification => 10
  | .cancelled => 11
  | .unsupportedAtomicity => 12

def preferredReason (current : Option ReasonCode) (candidate : ReasonCode) : ReasonCode :=
  match current with
  | some reason => if reasonPriority reason ≤ reasonPriority candidate then reason else candidate
  | none => candidate

end Policy

/-- Style, then channel, then fewer findings, then fluency, then the smaller edit, then the smaller identity. -/
def compareCandidates (left right : GeneratedCandidate) : Ordering :=
  (left.rank.style.totalCmp right.rank.style).then <|
    (left.rank.channel.totalCmp right.rank.channel).then <|
      (compare right.rank.editorialPenalty left.rank.editorialPenalty).then <|
        (left.rank.fluency.totalCmp right.rank.fluency).then <|
          (compare right.rank.editCost left.rank.editCost).then (compare right.id.asStr left.id.asStr)

end Retonr
