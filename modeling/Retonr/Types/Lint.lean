import Retonr.Lib.CountMap
import Retonr.Lib.Text

/-! Editorial findings and their comparison between a source and a candidate replacement. -/

namespace Retonr

structure FindingSpan where
  (start stop line column : UInt32)

structure EditorialFinding where
  (ruleId evidence : Text)
  occurrence : UInt16
  message : Text
  span : Option FindingSpan

/-- What two findings are compared by; the message and the span are not part of it. -/
abbrev FindingKey := Text × Text × UInt16

namespace EditorialFinding

def new (ruleId evidence : Text) (occurrence : UInt16) (message : Text) : EditorialFinding :=
  ⟨ruleId, evidence, occurrence, message, none⟩

def key (finding : EditorialFinding) : FindingKey := (finding.ruleId, finding.evidence, finding.occurrence)

end EditorialFinding

def findingCounts (findings : List EditorialFinding) : CountMap FindingKey :=
  findings.foldl (fun counts finding => counts.increment finding.key) []

/-- One finding of the other side that is still unmatched, or nothing. -/
def consumeFinding (counts : CountMap FindingKey) (finding : EditorialFinding) : Option (CountMap FindingKey) :=
  counts.consume finding.key

structure EditorialComparison where
  (sourceFindings candidateFindings resolvedFindings introducedFindings retainedFindings : List EditorialFinding)

namespace EditorialComparison

/-- The findings that found no partner and those that did, each in the order they came in. -/
def consumeAll : List EditorialFinding → CountMap FindingKey → List EditorialFinding × List EditorialFinding
  | [], _ => ([], [])
  | finding :: rest, remaining =>
      match consumeFinding remaining finding with
      | some fewer => ((consumeAll rest fewer).1, finding :: (consumeAll rest fewer).2)
      | none => (finding :: (consumeAll rest remaining).1, (consumeAll rest remaining).2)

def compute (sourceFindings candidateFindings : List EditorialFinding) : EditorialComparison :=
  let candidateRemaining := findingCounts candidateFindings
  let sourceRemaining := findingCounts sourceFindings
  let (resolved, retained) := consumeAll sourceFindings candidateRemaining
  let (introduced, _) := consumeAll candidateFindings sourceRemaining
  { sourceFindings, candidateFindings
    resolvedFindings := resolved
    introducedFindings := introduced
    retainedFindings := retained }

def hasIntroducedDefects (comparison : EditorialComparison) : Bool := !comparison.introducedFindings.isEmpty

def isStrictImprovement (comparison : EditorialComparison) : Bool :=
  !comparison.resolvedFindings.isEmpty && comparison.introducedFindings.isEmpty

end EditorialComparison

end Retonr
