import Retonr.Lib.Unicode
import Retonr.Types.Rewrite
import Retonr.Types.Validation

/-! The semantic evaluator port and the model-free evaluator for literal mode, which
accepts exact equality of lowercased token sequences. -/

namespace Retonr
open Text

/-- The port an independent evaluator implements. -/
structure SemanticEvaluator where
  id : Text
  evaluate : Text → Text → RewriteMode → SemanticAssessment

namespace Semantic

/-- Every comparison detail is bound to this unit and these exact texts. -/
def evidenceMatches (assessment : SemanticAssessment) (unitId : RewriteUnitId) (source candidate : Text) : Bool :=
  assessment.evidence.all fun evidence =>
    match evidence.details with
    | some (.claimComparison comparison) =>
        comparison.unitId == unitId && comparison.sourceTextDigest == Digest.sha256 (encode source) &&
          comparison.candidateTextDigest == Digest.sha256 (encode candidate) &&
          comparison.sourceTextBytes == byteLen source && comparison.candidateTextBytes == byteLen candidate
    | none => true

structure LexicalToken where
  text : Text
  offset : Nat

def flush (current : Text) (currentAt : Nat) : List LexicalToken := if current = [] then [] else [⟨current, currentAt⟩]

/-- The tokenizer loop: the token being read, where it began, and what is left to read. -/
def lexicalTokensFrom (unicode : Unicode) : Nat → Text → Nat → Text → List LexicalToken
  | _, current, currentAt, [] => flush current currentAt
  | offset, current, currentAt, char :: rest =>
      if unicode.alphanumeric char then
        lexicalTokensFrom unicode (offset + char.utf8Size) (current ++ unicode.lowercase char)
          (if current = [] then offset else currentAt) rest
      else if char = '.' ∧ current = [] ∧ rest.head?.any Char.isDigit then
        lexicalTokensFrom unicode (offset + char.utf8Size) ['.'] offset rest
      else if char = '\r' ∨ char = '\n' then
        flush current currentAt ++ ⟨['\n'], offset⟩ ::
          match rest with
          | [] => []
          | next :: more =>
              if char = '\r' ∧ next = '\n' then lexicalTokensFrom unicode (offset + char.utf8Size + 1) [] currentAt more
              else lexicalTokensFrom unicode (offset + char.utf8Size) [] currentAt (next :: more)
      else flush current currentAt ++ lexicalTokensFrom unicode (offset + char.utf8Size) [] currentAt rest

def lexicalTokenSpans (unicode : Unicode) (text : Text) : List LexicalToken := lexicalTokensFrom unicode 0 [] 0 text

def lexicalTokens (unicode : Unicode) (text : Text) : List Text := (lexicalTokenSpans unicode text).map LexicalToken.text

inductive LiteralTokenChange where
  | altered (source candidate : Nat)
  | missing (source : Nat)
  | added (candidate : Nat)

def firstTokenChange : List LexicalToken → List LexicalToken → Option LiteralTokenChange
  | left :: lefts, right :: rights =>
      if left.text ≠ right.text then some (.altered left.offset right.offset) else firstTokenChange lefts rights
  | left :: _, [] => some (.missing left.offset)
  | [], right :: _ => some (.added right.offset)
  | [], [] => none

def firstLiteralTokenChange (unicode : Unicode) (source candidate : Text) : Option LiteralTokenChange :=
  firstTokenChange (lexicalTokenSpans unicode source) (lexicalTokenSpans unicode candidate)

def finding (status : GateStatus) (confidence : Option Binary32) (code : SemanticEvidenceCode) : SemanticAssessment :=
  { status, confidence, evidence := [{ code, details := none }] }

def literalSemanticEvaluator (unicode : Unicode) : SemanticEvaluator where
  id := "literal-token-sequence-v1".toList
  evaluate source candidate mode :=
    if mode ≠ .literal then finding .uncertain none .unsupportedMode
    else if lexicalTokens unicode source = lexicalTokens unicode candidate then
      finding .pass (some .one) .literalTokensEqual
    else finding .uncertain none .literalTokensChanged

theorem literalSemanticEvaluator_evaluate (unicode : Unicode) (source candidate : Text) (mode : RewriteMode) :
    (literalSemanticEvaluator unicode).evaluate source candidate mode = if mode ≠ .literal then finding .uncertain none .unsupportedMode
      else if lexicalTokens unicode source = lexicalTokens unicode candidate then finding .pass (some .one) .literalTokensEqual
      else finding .uncertain none .literalTokensChanged := rfl

end Semantic

end Retonr
