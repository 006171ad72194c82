import Retonr.App.ClaimExtraction
import Retonr.Engine.Engine
import Retonr.Grounded.Strategy
import Retonr.Types.Record

/-! The deterministic candidate check: one engine run over a parsed plain text, then the
edit, then a final verification that can still veto it. -/

namespace Retonr
open Text

structure CandidateCheckRequest where
  source : Bytes
  candidate : Text
  protectedTerms : List Text
  layout : Option LayoutConstraints
  editLevel : Option EditLevel

structure CandidateCheckResult where
  output : Bytes
  record : RewriteRecord

inductive AppError where
  | candidateTooLarge (actual maximum : Nat)
  | textAdapter (fault : TextAdapterError)
  | engine (fault : EngineError)
  | protection (fault : ProtectionError)
  | grounded (fault : GroundedError)
  | claimExtraction (fault : ClaimExtractionError)

namespace CandidateCheck

/-- The structure gate of a plain-text transaction. -/
def plainTextStructure (parsed : ParsedTextDocument) : StructureValidator where
  validate unit candidate :=
    if TextSafety.replacementPreservesTextSafety unit.text candidate = false then .unsafeText
    else if TextAdapter.replacementPreservesStructure parsed candidate then .preserved
    else .changed

def plainTextEngine (environment : Environment) (parsed : ParsedTextDocument) (generator : CandidateGenerator)
    (claimShadow : Option ClaimShadowObserver) : RewriteEngine where
  environment
  generator
  semantic := Semantic.literalSemanticEvaluator environment.unicode
  structural := plainTextStructure parsed
  claimShadow

/-- The record and the bytes of a completed run, after the final verification. -/
def finishTransaction (parsed : ParsedTextDocument) (outcome : EngineOutcome) (proposed : Bytes) : CandidateCheckResult :=
  let verification := TextAdapter.verify parsed proposed outcome.edits
  let (output, status, reason, selectedCandidates) :=
    if verification.valid then (proposed, outcome.status, outcome.reason, outcome.selectedCandidates)
    else (parsed.original, .abstained, some .reassemblyVerification, [])
  { output
    record := .new parsed.document.documentId parsed.document.sourceDigest (Digest.sha256 output) status reason selectedCandidates
      outcome.assessments }

def runPlainTextTransaction (environment : Environment) (parsed : ParsedTextDocument) (generator : CandidateGenerator)
    (options : RewriteOptions) (claimShadow : Option ClaimShadowObserver) (cancellation : CancellationToken) :
    Except AppError CandidateCheckResult :=
  match (plainTextEngine environment parsed generator claimShadow).run parsed.document options cancellation with
  | .error fault => .error (.engine fault)
  | .ok outcome =>
      match TextAdapter.apply parsed outcome.edits with
      | .error fault => .error (.textAdapter fault)
      | .ok proposed => .ok (finishTransaction parsed outcome proposed)

def stripUtf8BomPrefix : Text → Text
  | '\uFEFF' :: rest => rest
  | candidate => candidate

def checkOptions (request : CandidateCheckRequest) : RewriteOptions :=
  { RewriteOptions.default with
    mode := .literal
    protectedTerms := request.protectedTerms
    layout := request.layout
    editLevel := request.editLevel }

/-- One supplied candidate under literal mode; `cancelled` is what the generator polls. -/
def checkWithClaimShadow (environment : Environment) (request : CandidateCheckRequest) (cancellation : CancellationToken)
    (cancelled : Bool) (claimShadow : Option ClaimShadowObserver) : Except AppError CandidateCheckResult :=
  let candidate := stripUtf8BomPrefix request.candidate
  if maxPlainTextBytes < byteLen candidate then .error (.candidateTooLarge (byteLen candidate) maxPlainTextBytes)
  else
    match TextAdapter.parse request.source with
    | .error fault => .error (.textAdapter fault)
    | .ok parsed =>
        runPlainTextTransaction environment parsed (providedCandidateGenerator [candidate] cancelled) (checkOptions request)
          claimShadow cancellation

end CandidateCheck

end Retonr
