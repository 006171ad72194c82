import Retonr.Lib.Except
import Retonr.Lib.Scan
import Retonr.Lib.Unicode

/-! Typed literals and declared terms found in a text. URLs, emails, numbers, and
comparison operators are each searched on their own; overlapping finds are
then resolved in favour of the earliest and longest. -/

namespace Retonr
open Text

def maxProtectedOccurrences : Nat := 4096

def maxProtectedTextBytes : Nat := 16 * 1024 * 1024

def maxProtectedTerms : Nat := 32

def maxProtectedTermBytes : Nat := 256

def maxProtectedTermTotalBytes : Nat := 2 * 1024

inductive ProtectedKind where
  | declaredTerm
  | url
  | email
  | number
  deriving DecidableEq

namespace ProtectedKind

def tokenLabel : ProtectedKind → Text
  | declaredTerm => ['T', 'E', 'R', 'M']
  | url => ['U', 'R', 'L']
  | email => ['E', 'M', 'A', 'I', 'L']
  | number => ['N', 'U', 'M', 'B', 'E', 'R']

def rank : ProtectedKind → Nat
  | declaredTerm => 0
  | url => 1
  | email => 2
  | number => 3

end ProtectedKind

inductive ProtectionError where
  | reservedTokenInSource
  | protectedOccurrenceCount
  | sentinelOccurrenceCount
  | unknownSentinel
  | matcherBuild
  | resourceLimit
  | invalidDeclaredTerms
  | ambiguousSurfaceMapping
  deriving DecidableEq

namespace Extract

variable (unicode : Unicode)

def maxProtectionMatchSpans : Nat := maxProtectedOccurrences * 4

structure MatchSpan where
  (start stop : Nat)
  kind : ProtectedKind

/-- The pattern `https?://[^\s<>"']+`. -/
def urlPattern : Regex :=
  .seq (Regex.literal ['h', 't', 't', 'p']) (.seq (Regex.opt (Regex.literal ['s'])) (.seq (Regex.literal [':', '/', '/'])
    (Regex.plus (.chars fun char => !(Unicode.whiteSpace char || char ∈ ['<', '>', '\x22', '\x27'])))))

/-- The pattern `[A-Za-z0-9._%+-]+@[A-Za-z0-9.-]+\.[A-Za-z]{2,}`. -/
def emailPattern : Regex :=
  .seq (Regex.plus (.chars fun char => char.isAlphanum || char ∈ ['.', '_', '%', '+', '-'])) (.seq (Regex.literal ['@'])
    (.seq (Regex.plus (.chars fun char => char.isAlphanum || char ∈ ['.', '-'])) (.seq (Regex.literal ['.'])
      (.seq (Regex.times 2 (.chars Char.isAlpha)) (.star (.chars Char.isAlpha))))))

/-- The pattern `^(?:[$€£])?(?:\.\d+|(?:\d{1,3}(?:,\d{3})+|\d+)(?:\.\d+)?)`. -/
def numberBody : Regex :=
  let digit := Regex.chars unicode.decimalDigit
  let fraction := Regex.seq (Regex.literal ['.']) (Regex.plus digit)
  let grouped := Regex.seq (Regex.timesUpTo 1 2 digit) (Regex.plus (.seq (Regex.literal [',']) (Regex.times 3 digit)))
  .seq (Regex.opt (.chars (· ∈ ['$', '€', '£'])))
    (.alt fraction (.seq (.alt grouped (Regex.plus digit)) (Regex.opt fraction)))

def comparisonOperators : List Text := [['!', '='], ['=', '='], ['<', '='], ['>', '='], ['<'], ['>'], ['=']]

def isNumberSign (char : Char) : Bool := char == '-' || char == '+' || char == '−'

/-- The fraction loop: each slash followed by another number body is taken in. -/
def fractionTail : Nat → Text → Text
  | 0, rest => rest
  | fuel + 1, '/' :: after =>
      match ((numberBody unicode).run after).head? with
      | none => '/' :: after
      | some next => if next.length = after.length then '/' :: after else fractionTail fuel next
  | _ + 1, rest => rest

def dropPercent : Text → Text
  | '%' :: rest => rest
  | rest => rest

/-- What a numeric literal that starts here leaves behind. -/
def numberRest (before : Option Char) : Text → Option Text
  | [] => none
  | first :: tail =>
      let body := if isNumberSign first then if before.any unicode.alphanumeric then none else some tail else some (first :: tail)
      body.bind fun body => ((numberBody unicode).run body).head?.map fun rest =>
        dropPercent (fractionTail unicode rest.length rest)

def openerOf : Char → Option Char
  | ')' => some '('
  | ']' => some '['
  | '\x7d' => some '\x7b'
  | _ => none

/-- Trims the reversed URL: sentence punctuation and unopened closers go. -/
def trimReversed : Text → Text
  | [] => []
  | last :: front =>
      if last ∈ ['.', ',', ';', ':', '!', '?'] ∨
          (last ∈ [')', ']', '\x7d'] ∧ ¬(∃ opener ∈ openerOf last, opener ∈ front)) then trimReversed front
      else last :: front

def trimUrl (surface : Text) : Text := (trimReversed surface.reverse).reverse

def addMatchSpan (spans : List MatchSpan) (span : MatchSpan) : Except ProtectionError (List MatchSpan) :=
  if spans.length = maxProtectionMatchSpans then .error .resourceLimit else .ok (spans ++ [span])

def addMatches (spans : List MatchSpan) (hits : List Hit) (kind : ProtectedKind) : Except ProtectionError (List MatchSpan) :=
  hits.foldlM (fun spans hit => addMatchSpan spans ⟨hit.start, hit.stop, kind⟩) spans

/-- A found URL without its trailing punctuation, when what is left is still a whole URL. -/
def trimmedUrl (hit : Hit) : Option Hit :=
  let trimmed := trimUrl hit.surface
  if trimmed = [] then none
  else
    match Scan.find (Matcher.ofRegex urlPattern) trimmed with
    | some inner => if inner.start = 0 ∧ inner.stop = byteLen trimmed then some ⟨hit.start, trimmed⟩ else none
    | none => none

def addUrlMatches (spans : List MatchSpan) (source : Text) : Except ProtectionError (List MatchSpan) :=
  addMatches spans ((Scan.scan (Matcher.ofRegex urlPattern) source).filterMap trimmedUrl) .url

def addEmailMatches (spans : List MatchSpan) (source : Text) : Except ProtectionError (List MatchSpan) :=
  addMatches spans (Scan.scan (Matcher.ofRegex emailPattern) source) .email

def addNumberMatches (spans : List MatchSpan) (source : Text) : Except ProtectionError (List MatchSpan) :=
  addMatches spans (Scan.scan (Matcher.ofRest (numberRest unicode)) source) .number

def addComparisonMatches (spans : List MatchSpan) (source : Text) : Except ProtectionError (List MatchSpan) :=
  addMatches spans (Scan.scan (Matcher.firstOf comparisonOperators) source) .number

def addTypedSpans (spans : List MatchSpan) (source : Text) : Except ProtectionError (List MatchSpan) := do
  let spans ← addUrlMatches spans source
  let spans ← addEmailMatches spans source
  let spans ← addNumberMatches unicode spans source
  addComparisonMatches spans source

def collectSourceSpans (source : Text) (declaredTerms : List Text) : Except ProtectionError (List MatchSpan) := do
  let spans ← (declaredTerms.filter (!·.isEmpty)).foldlM
    (fun spans term => addMatches spans (Scan.scan (Matcher.ofLiteral term) source) .declaredTerm) []
  addTypedSpans unicode spans source

/-- Earlier first, then longer first, then by kind. -/
def spanLe (left right : MatchSpan) : Prop :=
  left.start < right.start ∨ left.start = right.start ∧
    (right.stop < left.stop ∨ right.stop = left.stop ∧ left.kind.rank ≤ right.kind.rank)

instance : DecidableRel spanLe := fun _ _ => inferInstanceAs (Decidable (_ ∨ _))

def selectSorted : Option Nat → Nat → List MatchSpan → Except ProtectionError (List MatchSpan)
  | _, _, [] => .ok []
  | previousStop, count, span :: spans =>
      if previousStop.all (· ≤ span.start) then
        if count = maxProtectedOccurrences then .error .resourceLimit
        else (selectSorted (some span.stop) (count + 1) spans).map (span :: ·)
      else selectSorted previousStop count spans

def selectNonOverlapping (spans : List MatchSpan) : Except ProtectionError (List MatchSpan) :=
  selectSorted none 0 (spans.insertionSort spanLe)

def selectedTypedSpans (text : Text) : Except ProtectionError (List MatchSpan) := do
  selectNonOverlapping (← addTypedSpans unicode [] text)

/-- The kinds and surfaces of the given spans, with multiplicity. -/
def surfacesOf (text : Text) (spans : List MatchSpan) : Multiset (ProtectedKind × Text) :=
  (spans.map fun span => (span.kind, slice text span.start span.stop) : List (ProtectedKind × Text))

def typedCounts (text : Text) : Except ProtectionError (Multiset (ProtectedKind × Text)) :=
  (selectedTypedSpans unicode text).map (surfacesOf text)

def isExactTypedSpan (spans : List MatchSpan) (start stop : Nat) (kind : ProtectedKind) : Bool :=
  spans.any fun span => span.start == start && span.stop == stop && span.kind == kind

end Extract

end Retonr
