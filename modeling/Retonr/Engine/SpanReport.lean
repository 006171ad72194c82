import Retonr.Engine.Protection
import Retonr.Engine.Semantic

/-! Redacted locations for protected, structural, and unsafe failures. -/

namespace Retonr.SpanReport
open Text Extract

/-- Failure details are kept only when they satisfy the evidence contract. -/
def details (failures : List SpanFailure) : Option GateEvidenceDetails :=
  if failures.isEmpty then none
  else
    match GateEvidence.new "span_failures".toList "redacted span locations".toList (some (.spanFailures failures)) with
    | .ok evidence => evidence.details
    | .error _ => none

/-- One failure of a kind without ordinals, unless neither side has a location. -/
def oneFailure (kind source candidate : Text) (change : SpanChange) (sourceAt candidateAt : Option Nat) : List SpanFailure :=
  let failure : SpanFailure :=
    { kind
      ordinal := none
      source := sourceAt.bind (TextPoint.fromByteIndex source)
      candidate := candidateAt.bind (TextPoint.fromByteIndex candidate)
      change }
  if failure.source.isSome || failure.candidate.isSome then [failure] else []

structure Side where
  kind : ProtectedKind
  surface : Text
  start : Nat

def sides (text : Text) (spans : List MatchSpan) : List Side :=
  spans.map fun span => ⟨span.kind, slice text span.start span.stop, span.start⟩

/-- Pairs equal occurrences in order and keeps what is left on either side. -/
def unmatchedSides : List Side → List Side → List Side × List Side
  | [], candidates => ([], candidates)
  | side :: rest, candidates =>
      match candidates.findIdx? fun other => other.kind == side.kind && other.surface == side.surface with
      | some index => unmatchedSides rest (candidates.eraseIdx index)
      | none =>
          let (sources, remaining) := unmatchedSides rest candidates
          (side :: sources, remaining)

def pairSides : List Side → List Side → List (Option Side × Option Side × SpanChange)
  | source :: sources, candidate :: candidates => (some source, some candidate, .altered) :: pairSides sources candidates
  | source :: sources, [] => (some source, none, .missing) :: pairSides sources []
  | [], candidates => candidates.map fun candidate => (none, some candidate, .added)

def kindName : ProtectedKind → Text
  | .declaredTerm => "declared_term".toList
  | .url => "url".toList
  | .email => "email".toList
  | .number => "number".toList

def pushFailure (source candidate : Text) (declaredTerms : List Text) (kind : ProtectedKind) (failures : List SpanFailure)
    (entry : Option Side × Option Side × SpanChange) : List SpanFailure :=
  if failures.length = maxSpanFailures then failures
  else
    let (sourceSide, candidateSide, change) := entry
    let ordinal :=
      if kind = .declaredTerm then
        (sourceSide.or candidateSide).bind fun side => (declaredTerms.findIdx? (· == side.surface)).map (· + 1)
      else none
    if kind = .declaredTerm ∧ ordinal = none then failures
    else
      let failure : SpanFailure :=
        { kind := kindName kind
          ordinal
          source := sourceSide.bind fun side => TextPoint.fromByteIndex source side.start
          candidate := candidateSide.bind fun side => TextPoint.fromByteIndex candidate side.start
          change }
      if failure.source.isSome || failure.candidate.isSome then failures ++ [failure] else failures

def pairUnmatched (source candidate : Text) (declaredTerms : List Text) (unmatchedSource unmatchedCandidate : List Side) :
    List SpanFailure :=
  [ProtectedKind.declaredTerm, .url, .email, .number].foldl (fun failures kind =>
    (pairSides (unmatchedSource.filter (·.kind == kind)) (unmatchedCandidate.filter (·.kind == kind))).foldl
      (pushFailure source candidate declaredTerms kind) failures) []

def protectionDetails (unicode : Unicode) (source candidate : Text) (declaredTerms : List Text) : Option GateEvidenceDetails :=
  match protectedOccurrences unicode source declaredTerms, protectedOccurrences unicode candidate declaredTerms with
  | .ok sourceSpans, .ok candidateSpans =>
      let (unmatchedSource, unmatchedCandidate) := unmatchedSides (sides source sourceSpans) (sides candidate candidateSpans)
      details (pairUnmatched source candidate declaredTerms unmatchedSource unmatchedCandidate)
  | _, _ => none

inductive NewlineKind where
  | crlf
  | cr
  | lf
  deriving DecidableEq

def newlineEventsFrom : Nat → Text → List (Nat × NewlineKind)
  | _, [] => []
  | offset, char :: rest =>
      if char = '\r' then
        match rest with
        | [] => [(offset, .cr)]
        | next :: more =>
            if next = '\n' then (offset, .crlf) :: newlineEventsFrom (offset + 2) more
            else (offset, .cr) :: newlineEventsFrom (offset + 1) (next :: more)
      else if char = '\n' then (offset, .lf) :: newlineEventsFrom (offset + 1) rest
      else newlineEventsFrom (offset + char.utf8Size) rest

def newlineEvents (text : Text) : List (Nat × NewlineKind) := newlineEventsFrom 0 text

/-- The first newline event that differs: what changed and where on each side. -/
def firstEventChange : List (Nat × NewlineKind) → List (Nat × NewlineKind) → Option (SpanChange × Option Nat × Option Nat)
  | left :: lefts, right :: rights =>
      if left.2 ≠ right.2 then some (.altered, some left.1, some right.1)
      else if left.1 ≠ right.1 then some (.moved, some left.1, some right.1)
      else firstEventChange lefts rights
  | left :: _, [] => some (.missing, some left.1, none)
  | [], right :: _ => some (.added, none, some right.1)
  | [], [] => none

def structureFailures (source candidate : Text) : List SpanFailure :=
  match firstEventChange (newlineEvents source) (newlineEvents candidate) with
  | some (change, sourceAt, candidateAt) => oneFailure "structure".toList source candidate change sourceAt candidateAt
  | none =>
      match TextSafety.firstDifference source candidate with
      | some offset => oneFailure "structure".toList source candidate .altered (some offset) (some offset)
      | none => []

def structureDetails (source candidate : Text) : Option GateEvidenceDetails := details (structureFailures source candidate)

def unsafeFailures (source candidate : Text) : List SpanFailure :=
  match TextSafety.firstTextSafetyFault source candidate with
  | some (.hardIntroduced offset) => oneFailure "unsafe_text".toList source candidate .introduced none (some offset)
  | some (.invisibleIntroduced offset) => oneFailure "unsafe_text".toList source candidate .introduced none (some offset)
  | some (.hardAltered offset) => oneFailure "unsafe_text".toList source candidate .altered (some offset) (some offset)
  | none => []

def unsafeDetails (source candidate : Text) : Option GateEvidenceDetails := details (unsafeFailures source candidate)

def literalTokenDetails (unicode : Unicode) (source candidate : Text) : Option GateEvidenceDetails :=
  match Semantic.firstLiteralTokenChange unicode source candidate with
  | some (.altered sourceAt candidateAt) =>
      details (oneFailure "word_changed".toList source candidate .altered (some sourceAt) (some candidateAt))
  | some (.missing sourceAt) => details (oneFailure "word_changed".toList source candidate .missing (some sourceAt) none)
  | some (.added candidateAt) => details (oneFailure "word_changed".toList source candidate .added none (some candidateAt))
  | none => none

end Retonr.SpanReport
