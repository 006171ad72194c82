import Retonr.Types.Rewrite
import Retonr.Types.TextSafety

/-! The byte-aware plain-text adapter: parsing without normalisation, applying an
accepted edit behind the original byte order mark, and checking the result. -/

namespace Retonr
open Text

def utf8Bom : Bytes := [0xEF, 0xBB, 0xBF]

def utf16LeBom : Bytes := [0xFF, 0xFE]

def utf16BeBom : Bytes := [0xFE, 0xFF]

def maxPlainTextBytes : Nat := 16 * 1024 * 1024

inductive LineEndingKind where
  | none
  | lf
  | crLf
  | cr
  | mixed

structure TextMetadata where
  hasUtf8Bom : Bool
  lineEndings : LineEndingKind
  hasFinalNewline : Bool
  sourceByteLen : Nat

structure ParsedTextDocument where
  document : DocumentIr
  original : Bytes
  bodyOffset : Nat
  metadata : TextMetadata

structure VerificationReport where
  valid : Bool
  diagnostics : List Text

inductive TextAdapterError where
  | inputTooLarge (actual maximum : Nat)
  | unsupportedUtf16
  | invalidUtf8 (validUpTo : Nat)
  | unknownUnit
  | tooManyEdits
  | invalidSpan

namespace TextAdapter

/-- One mark per newline of the encoded text: `L` for LF, `C` for CRLF, `R` for a lone CR. -/
def newlineKinds : Bytes → Bytes
  | [] => []
  | 0x0D :: 0x0A :: bytes => 0x43 :: newlineKinds bytes
  | 0x0D :: bytes => 0x52 :: newlineKinds bytes
  | 0x0A :: bytes => 0x4C :: newlineKinds bytes
  | _ :: bytes => newlineKinds bytes

def newlineSignature (text : Text) : Bytes := newlineKinds (encode text)

/-- What the fingerprint digests: the byte order mark flag and the newline signature. -/
def newlineSkeleton (text : Text) (hasUtf8Bom : Bool) : Bytes := (if hasUtf8Bom then 1 else 0) :: newlineSignature text

def structuralFingerprint (text : Text) (hasUtf8Bom : Bool) : StructuralFingerprint where
  kind := "plain-text-newline-skeleton-v1".toList
  digest := Digest.sha256 (newlineSkeleton text hasUtf8Bom)

def lineEndingKind (sawLf sawCrLf sawCr : Bool) : LineEndingKind :=
  match sawLf.toNat + sawCrLf.toNat + sawCr.toNat, sawLf, sawCrLf, sawCr with
  | 0, _, _, _ => .none
  | 1, true, _, _ => .lf
  | 1, _, true, _ => .crLf
  | 1, _, _, true => .cr
  | _, _, _, _ => .mixed

def metadata (input : Bytes) (text : Text) (hasUtf8Bom : Bool) : TextMetadata :=
  let signature := newlineSignature text
  { hasUtf8Bom
    lineEndings := lineEndingKind (signature.contains 0x4C) (signature.contains 0x43) (signature.contains 0x52)
    hasFinalNewline := text.getLast? == some '\n' || text.getLast? == some '\r'
    sourceByteLen := input.length }

/-- The one unit of a non-empty body. -/
def rewriteUnits (sourceDigest : Digest) (body : Bytes) (text : Text) : Except TextAdapterError (List RewriteUnit) :=
  if text = [] then .ok []
  else
    match SourceSpan.new 0 body.length with
    | .error _ => .error .invalidSpan
    | .ok sourceSpan => .ok [{ id := RewriteUnitId.new (DocumentId.fromDigest sourceDigest) 0, sourceSpan, text }]

def parse (input : Bytes) : Except TextAdapterError ParsedTextDocument :=
  if maxPlainTextBytes < input.length then .error (.inputTooLarge input.length maxPlainTextBytes)
  else if utf16LeBom.isPrefixOf input || utf16BeBom.isPrefixOf input then .error .unsupportedUtf16
  else
    let hasUtf8Bom := utf8Bom.isPrefixOf input
    let bodyOffset := if hasUtf8Bom then utf8Bom.length else 0
    let body := input.drop bodyOffset
    match decode body with
    | .error validUpTo => .error (.invalidUtf8 (bodyOffset + validUpTo))
    | .ok text => do
        let sourceDigest := Digest.sha256 input
        let units ← rewriteUnits sourceDigest body text
        match DocumentIr.new sourceDigest .plainText units (structuralFingerprint text hasUtf8Bom) with
        | .error _ => .error .invalidSpan
        | .ok document => .ok { document, original := input, bodyOffset, metadata := metadata input text hasUtf8Bom }

def apply (parsed : ParsedTextDocument) (edits : List AcceptedEdit) : Except TextAdapterError Bytes :=
  match edits with
  | [] => .ok parsed.original
  | [edit] =>
      match parsed.document.rewriteUnits.head? with
      | none => .error .unknownUnit
      | some expected =>
          if edit.unitId ≠ expected.id then .error .unknownUnit
          else .ok (parsed.original.take parsed.bodyOffset ++ encode edit.replacement)
  | _ => .error .tooManyEdits

def verify (before : ParsedTextDocument) (output : Bytes) (edits : List AcceptedEdit) : VerificationReport :=
  if edits = [] then
    if output = before.original then ⟨true, []⟩ else ⟨false, ["original_bytes_changed_without_edit".toList]⟩
  else
    match parse output with
    | .error _ => ⟨false, ["output_reparse_failed".toList]⟩
    | .ok after =>
        let diagnostics :=
          (if before.metadata.hasUtf8Bom ≠ after.metadata.hasUtf8Bom then ["utf8_bom_changed".toList] else []) ++
            (if before.document.structural ≠ after.document.structural then ["text_structure_changed".toList] else [])
        ⟨diagnostics.isEmpty, diagnostics⟩

def replacementPreservesStructure (parsed : ParsedTextDocument) (replacement : Text) : Bool :=
  structuralFingerprint replacement parsed.metadata.hasUtf8Bom == parsed.document.structural

end TextAdapter

end Retonr
