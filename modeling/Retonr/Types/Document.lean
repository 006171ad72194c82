import Retonr.Lib.Framing
import Retonr.Lib.Sha256

/-! Content-derived identities and the format-neutral document handed to the
rewrite engine. -/

namespace Retonr
open Text

def decimal (value : Nat) : Text := Nat.toDigits 10 value

/-- Splits at the last occurrence of the separator. -/
def rsplitOnce (separator : Text) : Text → Option (Text × Text)
  | [] => if separator.isEmpty then some ([], []) else none
  | char :: rest =>
      match rsplitOnce separator rest with
      | some (before, after) => some (char :: before, after)
      | none =>
          if separator.isPrefixOf (char :: rest) then some ([], (char :: rest).drop separator.length) else none

theorem rsplitOnce_eq_none {separator : Char} {text : Text} : rsplitOnce [separator] text = none ↔ separator ∉ text := by
  induction text with
  | nil => simp [rsplitOnce]
  | cons char rest ih =>
    cases split : rsplitOnce [separator] rest with
    | none => simp [rsplitOnce, split, ih.mp split, List.isPrefixOf]
    | some parts =>
      have inside : separator ∈ rest := by
        by_contra outside
        rw [ih.mpr outside] at split
        cases split
      simp [rsplitOnce, split, inside]

theorem rsplitOnce_append {separator tail before after : Text} (split : rsplitOnce separator tail = some (before, after)) (front : Text) :
    rsplitOnce separator (front ++ tail) = some (front ++ before, after) := by
  induction front with
  | nil => exact split
  | cons char front ih => simp [rsplitOnce, ih]

theorem eq_of_rsplitOnce {separator : Char} {text before after : Text} (split : rsplitOnce [separator] text = some (before, after)) :
    text = before ++ separator :: after ∧ separator ∉ after := by
  induction text generalizing before with
  | nil => cases split
  | cons char rest ih =>
    simp only [rsplitOnce] at split
    split at split
    next front back earlier =>
      cases split
      obtain ⟨rfl, outside⟩ := ih earlier
      exact ⟨rfl, outside⟩
    next last =>
      split at split
      next starts =>
        cases split
        simp only [List.isPrefixOf, Bool.and_true, beq_iff_eq] at starts
        exact ⟨by simp [starts], rsplitOnce_eq_none.mp last⟩
      · cases split

theorem rsplitOnce_eq_some {separator : Char} {text before after : Text} :
    rsplitOnce [separator] text = some (before, after) ↔ text = before ++ separator :: after ∧ separator ∉ after := by
  refine ⟨eq_of_rsplitOnce, ?_⟩
  rintro ⟨rfl, outside⟩
  have last : rsplitOnce [separator] (separator :: after) = some ([], after) := by
    simp [rsplitOnce, rsplitOnce_eq_none.mpr outside]
  simpa using rsplitOnce_append last before

/-- A separator before the last one lies in what stands before the last one. -/
theorem before_last_separator {separator : Char} {before after front back : Text} (last : separator ∉ after)
    (same : before ++ separator :: after = front ++ separator :: back) : before = front ∨ ∃ rest, before = front ++ separator :: rest := by
  rcases List.append_eq_append_iff.mp same with ⟨between, rfl, tail⟩ | ⟨between, rfl, tail⟩
  · cases between with
    | nil => exact .inl (by simp)
    | cons char between =>
      simp only [List.cons_append, List.cons.injEq] at tail
      simp [tail.2] at last
  · cases between with
    | nil => exact .inl (by simp)
    | cons char between =>
      simp only [List.cons_append, List.cons.injEq] at tail
      exact .inr ⟨between, by rw [tail.1]⟩

def isSha256Hex (value : Text) : Bool := value.length == 64 && value.all Sha256.isLowerHex

/-- A lowercase hexadecimal SHA-256 digest. -/
structure Digest where
  asStr : Text
  canonical : isSha256Hex asStr = true
  deriving DecidableEq

namespace Digest

def sha256 (bytes : Bytes) : Digest where
  asStr := Sha256.hexDigest bytes
  canonical := by
    simp only [isSha256Hex, Bool.and_eq_true, beq_iff_eq, List.all_eq_true]
    exact ⟨Sha256.length_hexDigest bytes, fun _ member => Sha256.isLowerHex_of_mem_hexDigest member⟩

def fromSha256Hex (value : Text) : Option Digest :=
  if canonical : isSha256Hex value = true then some ⟨value, canonical⟩ else none

@[ext] theorem ext {left right : Digest} (same : left.asStr = right.asStr) : left = right := by
  cases left
  cases right
  simpa using same

theorem fromSha256Hex_eq_some {value : Text} {digest : Digest} : fromSha256Hex value = some digest ↔ value = digest.asStr := by
  unfold fromSha256Hex
  constructor
  · intro parsed
    split at parsed
    next => cases parsed; rfl
    next => cases parsed
  · rintro rfl
    rw [dif_pos digest.canonical]

theorem toNat_of_mem (digest : Digest) {char : Char} (member : char ∈ digest.asStr) :
    48 ≤ char.toNat ∧ char.toNat ≤ 57 ∨ 97 ≤ char.toNat ∧ char.toNat ≤ 102 := by
  have canonical := digest.canonical
  simp only [isSha256Hex, Bool.and_eq_true, List.all_eq_true] at canonical
  simpa [Sha256.isLowerHex, Char.isDigit, Char.le_def, UInt32.le_iff_toNat_le] using canonical.2 char member

theorem byteLen_asStr (digest : Digest) : byteLen digest.asStr = 64 := by
  have narrow : ∀ char ∈ digest.asStr, char.utf8Size = 1 := by
    intro char member
    have range := digest.toNat_of_mem member
    have small : char.toNat ≤ 127 := by omega
    exact Char.utf8Size_eq_one_iff.mpr small
  have canonical := digest.canonical
  simp only [isSha256Hex, Bool.and_eq_true, beq_iff_eq] at canonical
  rw [byteLen_eq_length narrow, canonical.1]

theorem byteLen_asStr_lt (digest : Digest) : byteLen digest.asStr < 2 ^ 64 := by
  rw [digest.byteLen_asStr]
  decide

theorem selfDelimiting : Framing.SelfDelimiting (fun _ => True) fun digest : Digest => Framing.sized (encode digest.asStr) := by
  intro digest other _ _
  exact Framing.SelfDelimiting.sizedText.comap asStr (fun _ _ => Digest.ext) digest.byteLen_asStr_lt other.byteLen_asStr_lt

end Digest

/-- Two byte strings that the digest does not confuse. -/
def Separated (left right : Bytes) : Prop := Digest.sha256 left = Digest.sha256 right → left = right

structure DocumentId where
  asStr : Text
  deriving DecidableEq

namespace DocumentId

def fromDigest (digest : Digest) : DocumentId := ⟨"document:".toList ++ digest.asStr⟩

end DocumentId

structure RewriteUnitId where
  asStr : Text
  deriving DecidableEq

namespace RewriteUnitId

def new (document : DocumentId) (ordinal : Nat) : RewriteUnitId :=
  ⟨document.asStr ++ ":unit:".toList ++ decimal ordinal⟩

end RewriteUnitId

structure CandidateId where
  asStr : Text
  deriving DecidableEq

namespace CandidateId

def new (unit : RewriteUnitId) (ordinal : Nat) : CandidateId :=
  ⟨unit.asStr ++ ":candidate:".toList ++ decimal ordinal⟩

def isScopedTo (id : CandidateId) (unit : RewriteUnitId) : Bool :=
  match rsplitOnce ":candidate:".toList id.asStr with
  | some (scope, _) => scope == unit.asStr
  | none => false

end CandidateId

/-- A half-open byte range; a reversed one cannot be built. -/
structure SourceSpan where
  (start stop : Nat)
  ordered : start ≤ stop
  deriving DecidableEq

namespace SourceSpan

structure SpanError where
  (start stop : Nat)

def new (start stop : Nat) : Except SpanError SourceSpan :=
  if ordered : start ≤ stop then .ok ⟨start, stop, ordered⟩ else .error ⟨start, stop⟩

def len (span : SourceSpan) : Nat := span.stop - span.start

def isEmpty (span : SourceSpan) : Bool := span.start == span.stop

end SourceSpan

inductive MediaType where
  | plainText

structure StructuralFingerprint where
  kind : Text
  digest : Digest
  deriving DecidableEq

structure RewriteUnit where
  id : RewriteUnitId
  sourceSpan : SourceSpan
  text : Text

inductive DocumentError where
  | unsupportedSchema (version : Nat)
  | documentIdentifier
  | unitIdentifier (index : Nat)
  | overlappingSpan (index : Nat)
  | spanLength (index : Nat)
  deriving DecidableEq

structure DocumentIr where
  schemaVersion : Nat
  documentId : DocumentId
  mediaType : MediaType
  sourceDigest : Digest
  rewriteUnits : List RewriteUnit
  structural : StructuralFingerprint

namespace DocumentIr

def schemaVersionCurrent : Nat := 1

def validateUnits (document : DocumentId) : Nat → Nat → List RewriteUnit → Except DocumentError Unit
  | _, _, [] => .ok ()
  | index, previousEnd, unit :: units =>
      if unit.id ≠ RewriteUnitId.new document index then .error (.unitIdentifier index)
      else if unit.sourceSpan.start < previousEnd then .error (.overlappingSpan index)
      else if unit.sourceSpan.len ≠ byteLen unit.text then .error (.spanLength index)
      else validateUnits document (index + 1) unit.sourceSpan.stop units

def validate (document : DocumentIr) : Except DocumentError Unit :=
  if document.schemaVersion ≠ schemaVersionCurrent then .error (.unsupportedSchema document.schemaVersion)
  else if document.documentId ≠ DocumentId.fromDigest document.sourceDigest then .error .documentIdentifier
  else validateUnits document.documentId 0 0 document.rewriteUnits

def new (sourceDigest : Digest) (mediaType : MediaType) (rewriteUnits : List RewriteUnit)
    (fingerprint : StructuralFingerprint) : Except DocumentError DocumentIr :=
  let document : DocumentIr :=
    { schemaVersion := schemaVersionCurrent
      documentId := DocumentId.fromDigest sourceDigest
      mediaType
      sourceDigest
      rewriteUnits
      structural := fingerprint }
  document.validate.map fun _ => document

end DocumentIr

end Retonr
