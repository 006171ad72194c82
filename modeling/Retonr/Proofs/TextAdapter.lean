import Retonr.App.CandidateCheck
import Retonr.Proofs.TextSafety

/-! What the plain-text adapter accepts and returns. A parsed input is its byte order mark
followed by an encoded text, and every such input parses; so an edit that passes the
structure gate survives the check of the assembled bytes. -/

namespace Retonr.TextAdapter
open Text List Retonr.Except

def bomBytes (hasUtf8Bom : Bool) : Bytes := if hasUtf8Bom then utf8Bom else []

/-- The parsed document describes the mark and the text its input consists of. -/
structure Describes (parsed : ParsedTextDocument) (hasUtf8Bom : Bool) (text : Text) : Prop where
  original : parsed.original = bomBytes hasUtf8Bom ++ encode text
  bodyOffset : parsed.bodyOffset = (bomBytes hasUtf8Bom).length
  marked : parsed.metadata.hasUtf8Bom = hasUtf8Bom
  structural : parsed.document.structural = structuralFingerprint text hasUtf8Bom
  units : parsed.document.rewriteUnits.map RewriteUnit.text = if text = [] then [] else [text]
  valid : parsed.document.validate = .ok ()

private theorem utf8Bom_eq : utf8Bom = String.utf8EncodeChar '\uFEFF' := by decide

variable {text : Text}

theorem head_of_bom (leading : utf8Bom.isPrefixOf (encode text) = true) : text.head? = some '\uFEFF' := by
  rw [ isPrefixOf_iff_prefix, utf8Bom_eq] at leading
  exact head_of_encode leading

theorem units_texts {sourceDigest : Digest} {body : Bytes} {units : List RewriteUnit}
    (built : rewriteUnits sourceDigest body text = .ok units) : units.map RewriteUnit.text = if text = [] then [] else [text] := by
  simp only [rewriteUnits] at built
  split at built
  next empty =>
    cases built
    simp [empty]
  next filled =>
    split at built
    · cases built
    · cases built
      simp [filled]

private theorem split_at_mark (input : Bytes) :
    input = bomBytes (utf8Bom.isPrefixOf input) ++ input.drop (if utf8Bom.isPrefixOf input then utf8Bom.length else 0) := by
  cases marked : utf8Bom.isPrefixOf input with
  | false => simp [bomBytes]
  | true =>
    obtain ⟨rest, rfl⟩ := isPrefixOf_iff_prefix.mp marked
    simp [bomBytes]

variable {parsed : ParsedTextDocument}

theorem parse_sound {input : Bytes} (accepted : parse input = .ok parsed) :
    input.length ≤ maxPlainTextBytes ∧ parsed.original = input ∧ parsed.document.sourceDigest = Digest.sha256 input ∧
      ∃ hasUtf8Bom text, Describes parsed hasUtf8Bom text ∧ (hasUtf8Bom = false → text.head? ≠ some '\uFEFF') := by
  simp only [parse] at accepted
  split at accepted
  · cases accepted
  next small =>
    split at accepted
    · cases accepted
    split at accepted
    · cases accepted
    next text decoded =>
      obtain ⟨units, built, accepted⟩ := bind_eq_ok.mp accepted
      split at accepted
      · cases accepted
      next document made =>
        cases accepted
        obtain ⟨_, valid, rfl⟩ := map_eq_ok.mp made
        have body := encode_of_decode decoded
        refine ⟨Nat.le_of_not_lt small, rfl, rfl, utf8Bom.isPrefixOf input, text, ⟨?_, ?_, rfl, rfl, units_texts built, valid⟩, ?_⟩
        · rw [body]
          exact split_at_mark input
        · cases utf8Bom.isPrefixOf input <;> rfl
        · intro unmarked head
          rw [unmarked] at body
          simp only [Bool.false_eq_true, if_false, drop_zero] at body
          obtain ⟨rest, rfl⟩ : ∃ rest, text = '\uFEFF' :: rest := by
            cases text with
            | nil => cases head
            | cons char rest =>
              cases head
              exact ⟨rest, rfl⟩
          have leading : utf8Bom.isPrefixOf input = true := by
            rw [ isPrefixOf_iff_prefix, utf8Bom_eq, ← body, encode_cons]
            exact prefix_append _ _
          rw [unmarked] at leading
          cases leading

private theorem utf16_absent {bytes : Bytes} (low : ∀ byte ∈ bytes, byte.toNat < 0xF8) :
    (utf16LeBom.isPrefixOf bytes || utf16BeBom.isPrefixOf bytes) = false := by
  cases bytes with
  | nil => rfl
  | cons byte bytes =>
    have bound := low byte (by simp)
    have notLe : byte ≠ 0xFF := by
      rintro rfl
      simp at bound
    have notBe : byte ≠ 0xFE := by
      rintro rfl
      simp at bound
    simp [utf16LeBom, utf16BeBom, List.isPrefixOf, notLe.symm, notBe.symm]

variable {hasUtf8Bom : Bool}

theorem marked_bytes (unmarked : hasUtf8Bom = false → text.head? ≠ some '\uFEFF') :
    utf8Bom.isPrefixOf (bomBytes hasUtf8Bom ++ encode text) = hasUtf8Bom := by
  cases hasUtf8Bom with
  | true => exact isPrefixOf_iff_prefix.mpr (prefix_append _ _)
  | false =>
    apply Bool.eq_false_iff.mpr
    exact fun leading => unmarked rfl (head_of_bom leading)

theorem not_utf16 (hasUtf8Bom : Bool) (text : Text) :
    (utf16LeBom.isPrefixOf (bomBytes hasUtf8Bom ++ encode text) || utf16BeBom.isPrefixOf (bomBytes hasUtf8Bom ++ encode text)) = false := by
  apply utf16_absent
  intro byte member
  rcases mem_append.mp member with mark | body
  · cases hasUtf8Bom with
    | true =>
      simp only [bomBytes, utf8Bom, if_true, mem_cons, not_mem_nil, or_false] at mark
      rcases mark with rfl | rfl | rfl <;> decide
    | false => simp [bomBytes] at mark
  · exact toNat_lt_of_mem_encode body

theorem drop_mark (hasUtf8Bom : Bool) (text : Text) :
    (bomBytes hasUtf8Bom ++ encode text).drop (if hasUtf8Bom then utf8Bom.length else 0) = encode text := by
  cases hasUtf8Bom with
  | true => exact drop_left
  | false => rfl

/-- The unit of an encoded text always satisfies the document contract. -/
private theorem rewriteUnits_complete (sourceDigest : Digest) (text : Text) : ∃ units, rewriteUnits sourceDigest (encode text) text = .ok units ∧
      DocumentIr.validateUnits (DocumentId.fromDigest sourceDigest) 0 0 units = .ok () := by
  by_cases empty : text = []
  · exact ⟨[], by simp [rewriteUnits, empty], rfl⟩
  · refine ⟨[⟨RewriteUnitId.new (DocumentId.fromDigest sourceDigest) 0, ⟨0, (encode text).length, Nat.zero_le _⟩, text⟩], ?_, ?_⟩
    · simp [rewriteUnits, empty, SourceSpan.new]
    · simp [DocumentIr.validateUnits, SourceSpan.len]

/-- Every mark followed by an encoded text parses, when the whole is small enough and a
text without a mark does not start with one. -/
theorem parse_complete (small : (bomBytes hasUtf8Bom ++ encode text).length ≤ maxPlainTextBytes)
    (unmarked : hasUtf8Bom = false → text.head? ≠ some '\uFEFF') :
    ∃ parsed, parse (bomBytes hasUtf8Bom ++ encode text) = .ok parsed ∧ Describes parsed hasUtf8Bom text := by
  obtain ⟨units, built, valid⟩ := rewriteUnits_complete (Digest.sha256 (bomBytes hasUtf8Bom ++ encode text)) text
  refine ⟨⟨⟨DocumentIr.schemaVersionCurrent, DocumentId.fromDigest (Digest.sha256 (bomBytes hasUtf8Bom ++ encode text)), .plainText,
      Digest.sha256 (bomBytes hasUtf8Bom ++ encode text), units, structuralFingerprint text hasUtf8Bom⟩,
    bomBytes hasUtf8Bom ++ encode text, if hasUtf8Bom then utf8Bom.length else 0,
    metadata (bomBytes hasUtf8Bom ++ encode text) text hasUtf8Bom⟩, ?_, ⟨rfl, ?_, rfl, rfl, units_texts built, ?_⟩⟩
  · simp only [parse]
    rw [if_neg (Nat.not_lt.mpr small), not_utf16]
    simp only [Bool.false_eq_true, if_false, marked_bytes unmarked, drop_mark, decode_encode, built, ok_bind, DocumentIr.new,
      DocumentIr.validate, ne_eq, not_true_eq_false, valid, Except.map]
  · cases hasUtf8Bom <;> rfl
  · simp [DocumentIr.validate, valid]

/-- A replacement the text-safety policy admits starts with a mark only if the source text does. -/
theorem head_of_safe {source replacement : Text} (safe : TextSafety.replacementPreservesTextSafety source replacement = true)
    (head : replacement.head? = some '\uFEFF') : source.head? = some '\uFEFF' := by
  have frozen : TextSafety.HardUnsafe replacement := by
    cases replacement with
    | nil => cases head
    | cons char rest =>
      cases head
      exact ⟨'\uFEFF', by simp, by decide⟩
  rcases (TextSafety.replacementPreservesTextSafety_iff source replacement).mp safe with ⟨_, rfl⟩ | ⟨_, clear, _⟩
  · exact head
  · exact absurd frozen clear

variable {unit : RewriteUnit}

theorem apply_single (single : parsed.document.rewriteUnits = [unit]) (replacement : Text) :
    apply parsed [⟨unit.id, replacement⟩] = .ok (parsed.original.take parsed.bodyOffset ++ encode replacement) := by
  simp [apply, single]

theorem Describes.take_original
    (describes : Describes parsed hasUtf8Bom text) : parsed.original.take parsed.bodyOffset = bomBytes hasUtf8Bom := by
  rw [describes.original, describes.bodyOffset]
  exact take_left

theorem Describes.unit_text
    (describes : Describes parsed hasUtf8Bom text) (single : parsed.document.rewriteUnits = [unit]) : unit.text = text := by
  have texts := describes.units
  rw [single] at texts
  split at texts
  · cases texts
  · exact singleton_injective texts

/-- What the structure gate of a plain-text transaction has checked when it passes. -/
theorem plainTextStructure_preserved {replacement : Text}
    (preserved : (CandidateCheck.plainTextStructure parsed).validate unit replacement = .preserved) :
    TextSafety.replacementPreservesTextSafety unit.text replacement = true ∧
      structuralFingerprint replacement parsed.metadata.hasUtf8Bom = parsed.document.structural := by
  simp only [CandidateCheck.plainTextStructure] at preserved
  split at preserved
  · cases preserved
  next safe =>
    split at preserved
    next same => exact ⟨Bool.not_eq_false _ ▸ safe, eq_of_beq same⟩
    · cases preserved

/-- The structure gate, passed on the replacement alone, implies the check of the assembled bytes:
the edit applies, the result verifies, and reparsing it gives the same mark, the same newline
skeleton and exactly the replacement as its body. -/
theorem structure_gate_implies_verification {input : Bytes} {parsed : ParsedTextDocument} {unit : RewriteUnit} {replacement : Text}
    (accepted : parse input = .ok parsed) (single : parsed.document.rewriteUnits = [unit])
    (preserved : (CandidateCheck.plainTextStructure parsed).validate unit replacement = .preserved)
    (small : byteLen replacement + parsed.bodyOffset ≤ maxPlainTextBytes) : ∃ output after, apply parsed [⟨unit.id, replacement⟩] = .ok output ∧
      (verify parsed output [⟨unit.id, replacement⟩]).valid = true ∧ parse output = .ok after ∧
      after.metadata.hasUtf8Bom = parsed.metadata.hasUtf8Bom ∧ after.document.structural = parsed.document.structural ∧
      output.drop after.bodyOffset = encode replacement ∧
      after.document.rewriteUnits.map RewriteUnit.text = (if replacement = [] then [] else [replacement]) ∧
      (Separated (newlineSkeleton replacement parsed.metadata.hasUtf8Bom) (newlineSkeleton unit.text parsed.metadata.hasUtf8Bom) →
        newlineSignature replacement = newlineSignature unit.text) := by
  obtain ⟨_, _, _, hasUtf8Bom, text, describes, unmarked⟩ := parse_sound accepted
  have body := describes.unit_text single
  obtain ⟨safe, fingerprint⟩ := plainTextStructure_preserved preserved
  have output := apply_single single replacement
  rw [describes.take_original] at output
  have fits : (bomBytes hasUtf8Bom ++ encode replacement).length ≤ maxPlainTextBytes := by
    rw [length_append, length_encode, ← describes.bodyOffset]
    omega
  obtain ⟨after, reparsed, again⟩ := parse_complete fits fun bare head => unmarked bare (head_of_safe (body ▸ safe) head)
  have sameMark : after.metadata.hasUtf8Bom = parsed.metadata.hasUtf8Bom := again.marked.trans describes.marked.symm
  have sameStructure : after.document.structural = parsed.document.structural := by
    rw [again.structural, ← fingerprint, describes.marked]
  refine ⟨_, after, output, ?_, reparsed, sameMark, sameStructure, ?_, again.units, ?_⟩
  · simp [verify, reparsed, sameMark, sameStructure]
  · rw [again.bodyOffset, drop_left]
  · intro separated
    rw [describes.marked] at separated fingerprint
    rw [describes.structural] at fingerprint
    have skeletons := separated (by rw [body]; exact congrArg StructuralFingerprint.digest fingerprint)
    exact (List.cons.inj skeletons).2

theorem structure_gate_implies_verification_marked :
    ∃ parsed unit output after, parse (utf8Bom ++ encode ['a', '\r', '\n']) = .ok parsed ∧ parsed.document.rewriteUnits = [unit] ∧
      apply parsed [⟨unit.id, ['a', '!', '\r', '\n']⟩] = .ok output ∧
      (verify parsed output [⟨unit.id, ['a', '!', '\r', '\n']⟩]).valid = true ∧ parse output = .ok after ∧
      output.drop after.bodyOffset = encode ['a', '!', '\r', '\n'] := by
  have computed : (parse (utf8Bom ++ encode ['a', '\r', '\n'])).toOption.map (fun parsed =>
      (parsed.bodyOffset, parsed.document.rewriteUnits.map fun unit =>
        (CandidateCheck.plainTextStructure parsed).validate unit ['a', '!', '\r', '\n'])) = some (3, [.preserved]) := by
    decide +kernel
  obtain ⟨parsed, accepted, facts⟩ := map_toOption_eq_some.mp computed
  obtain ⟨offset, gates⟩ := Prod.mk.inj facts
  obtain ⟨unit, single, preserved⟩ := map_eq_singleton_iff.mp gates
  have small : byteLen ['a', '!', '\r', '\n'] + parsed.bodyOffset ≤ maxPlainTextBytes := by
    rw [offset]
    decide
  obtain ⟨output, after, applied, valid, reparsed, _, _, body, _⟩ := structure_gate_implies_verification accepted single preserved small
  exact ⟨parsed, unit, output, after, accepted, single, applied, valid, reparsed, body⟩

end Retonr.TextAdapter
