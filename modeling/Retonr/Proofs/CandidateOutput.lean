import Retonr.Inference.CandidateOutput

/-! The ceiling of a candidate envelope leaves room for every envelope it is meant for, and such an
envelope is read back as the texts that were put into it. -/

namespace Retonr.CandidateOutput
open Text List Retonr.Except CandidateOutputPolicy

/-- An item of the envelope, from the spellings of its field name and of its text. -/
def itemText (item : Text × Text) : Text := '\x7b' :: (Json.quoted item.1 ++ ':' :: (Json.quoted item.2 ++ ['\x7d']))

/-- An envelope without white space, from the spelling of its field name and those of its items. -/
def envelopeText (name : Text) (items : List (Text × Text)) : Text :=
  '\x7b' :: (Json.quoted name ++ ':' :: '[' :: (List.intercalate [','] (items.map itemText) ++ [']', '\x7d']))

/-- An envelope whose field names are written as they are, from the spellings of the texts. -/
def compactEnvelope (bodies : List Text) : Text := envelopeText "candidates".toList (bodies.map fun body => ("text".toList, body))

/-- The candidates with their ordinals. -/
def numbered (texts : List Text) : List GenerationCandidate := texts.mapIdx GenerationCandidate.mk

/-- The bytes of all texts together. -/
def totalBytes (texts : List Text) : Nat := (texts.map byteLen).sum

/-- Each text and all of them together stay within the ceilings. -/
structure Fits (policy : CandidateOutputPolicy) (texts : List Text) : Prop where
  each : ∀ text ∈ texts, byteLen text ≤ policy.maximumCandidateBytes
  together : totalBytes texts ≤ policy.maximumAggregateCandidateBytes

variable {count candidateBytes aggregateBytes : Nat} {policy : CandidateOutputPolicy}

theorem new_eq_ok : new count candidateBytes aggregateBytes = .ok policy ↔
      (0 < count ∧ count ≤ maxInferenceCandidates ∧ 0 < candidateBytes ∧ 0 < aggregateBytes ∧ candidateBytes * count < 2 ^ 64 ∧
        aggregateBytes ≤ candidateBytes * count ∧ aggregateBytes * 6 + (count * 12 + 16 + 256) < 2 ^ 64) ∧
      policy = ⟨count, candidateBytes, aggregateBytes, aggregateBytes * 6 + (count * 12 + 16 + 256)⟩ := by
  simp only [new, bind_eq_ok, exists_unit, require_eq_ok, Except.ok.injEq]
  simp only [maxJsonBytesPerDecodedByte, maxCandidateFramingBytes, maxEnvelopeFramingBytes, rawEnvelopeAllowanceBytes]
  constructor
  · rintro ⟨ranges, useful, inside, -, room, rfl⟩
    exact ⟨⟨by omega, by omega, by omega, by omega, useful, inside, room⟩, rfl⟩
  · rintro ⟨⟨counted, bounded, candidate, aggregate, useful, inside, room⟩, rfl⟩
    exact ⟨by omega, useful, inside, by omega, room, rfl⟩

/-- The lexemes of an item with that text. -/
def itemLexemes (text : Text) : List Json.Lexeme := Json.sole "text".toList [.string text]

/-- The spelling of an item with that text. -/
def Spelled (item : Text × Text) (text : Text) : Prop := Json.Escapes item.1 "text".toList ∧ Json.Escapes item.2 text

theorem spelling_item {item : Text × Text} {text : Text} (spelled : Spelled item text) : Json.Spelling (itemText item) (itemLexemes text) := by
  intro rest following after
  have start : itemText item ++ rest = '\x7b' :: (Json.quoted item.1 ++ ':' :: (Json.quoted item.2 ++ '\x7d' :: rest)) := by simp [itemText]
  rw [start]
  exact .mark .openBrace (Json.Spells.quoted spelled.1 (.mark .colon (Json.Spells.quoted spelled.2 (.mark .closeBrace after))))

variable {items : List (Text × Text)} {texts : List Text}

theorem spelling_items (spelled : List.Forall₂ Spelled items texts) :
    Json.Spelling (List.intercalate [','] (items.map itemText)) (Json.commaSeparated (texts.map itemLexemes)) := by
  apply Json.Spelling.commaSeparated
  rw [forall₂_map_left_iff, forall₂_map_right_iff]
  exact spelled.imp fun _ _ => spelling_item

/-- The lexemes of the envelope with those texts. -/
def envelopeLexemes (texts : List Text) : List Json.Lexeme :=
  Json.sole "candidates".toList (.mark .openBracket :: (Json.commaSeparated (texts.map itemLexemes) ++ [.mark .closeBracket]))

variable {name : Text}

theorem spells_envelope (field : Json.Escapes name "candidates".toList)
    (spelled : List.Forall₂ Spelled items texts) : Json.Spells (envelopeText name items) (envelopeLexemes texts) := by
  have finish : Json.Spells [']', '\x7d'] [.mark .closeBracket, .mark .closeBrace] := .mark .closeBracket (.mark .closeBrace .nil)
  have whole := Json.Spells.quoted field (.mark .colon (.mark .openBracket (spelling_items spelled finish)))
  have start : envelopeLexemes texts = .mark .openBrace :: .string "candidates".toList :: .mark .colon :: .mark .openBracket ::
      (Json.commaSeparated (texts.map itemLexemes) ++ [.mark .closeBracket, .mark .closeBrace]) := by simp [envelopeLexemes, Json.sole]
  rw [start]
  exact .mark .openBrace whole

section

variable {policy : CandidateOutputPolicy} {received next : Received} {candidate : Text}

theorem visitCandidate_eq_ok : visitCandidate policy received candidate = .ok next ↔
    (received.candidates.length ≠ policy.expectedCount ∧ byteLen candidate ≤ policy.maximumCandidateBytes ∧
      received.aggregateBytes + byteLen candidate < 2 ^ 64 ∧
      received.aggregateBytes + byteLen candidate ≤ policy.maximumAggregateCandidateBytes ∧ received.candidates.length < 2 ^ 8) ∧
    next = ⟨received.candidates ++ [⟨received.candidates.length, candidate⟩], received.aggregateBytes + byteLen candidate⟩ := by
  simp only [visitCandidate, checkedAggregateByteCount, bind_eq_ok, exists_unit, require_eq_ok, Except.ok.injEq]
  constructor
  · rintro ⟨counted, small, _, ⟨fits, rfl⟩, inside, ordinal, rfl⟩
    exact ⟨⟨counted, small, fits, inside, ordinal⟩, rfl⟩
  · rintro ⟨⟨counted, small, fits, inside, ordinal⟩, rfl⟩
    exact ⟨counted, small, _, ⟨fits, rfl⟩, inside, ordinal, rfl⟩

@[simp] theorem length_numbered (texts : List Text) : (numbered texts).length = texts.length := length_mapIdx

theorem numbered_concat (texts : List Text) (text : Text) : numbered (texts ++ [text]) = numbered texts ++ [⟨texts.length, text⟩] :=
  mapIdx_concat

theorem totalBytes_concat (texts : List Text) (text : Text) : totalBytes (texts ++ [text]) = totalBytes texts + byteLen text := by
  simp [totalBytes]

/-- What has been received is the texts so far, and they stay within the ceilings. -/
def Within (policy : CandidateOutputPolicy) (received : Received) : Prop :=
  ∃ texts, received = ⟨numbered texts, totalBytes texts⟩ ∧ Fits policy texts

theorem Within.visit (within : Within policy received) (visited : visitCandidate policy received candidate = .ok next) : Within policy next := by
  obtain ⟨texts, rfl, fits⟩ := within
  obtain ⟨⟨-, small, -, inside, -⟩, rfl⟩ := visitCandidate_eq_ok.mp visited
  refine ⟨texts ++ [candidate], ?_, forall_mem_append.mpr ⟨fits.each, forall_mem_singleton.mpr small⟩, ?_⟩
  · rw [numbered_concat, totalBytes_concat, length_numbered]
  · rwa [totalBytes_concat]

theorem totalBytes_append (texts others : List Text) : totalBytes (texts ++ others) = totalBytes texts + totalBytes others := by
  simp [totalBytes]

theorem foldlM_visitCandidate {before texts : List Text} (fits : Fits policy (before ++ texts)) (representable : policy.maximumAggregateCandidateBytes < 2 ^ 64)
    (counted : before.length + texts.length ≤ policy.expectedCount) (few : policy.expectedCount ≤ maxInferenceCandidates) :
    texts.foldlM (visitCandidate policy) ⟨numbered before, totalBytes before⟩ = .ok ⟨numbered (before ++ texts), totalBytes (before ++ texts)⟩ := by
  induction texts generalizing before with
  | nil => simp [pure, Except.pure]
  | cons text texts ih =>
    have together := fits.together
    have split : before ++ text :: texts = (before ++ [text]) ++ texts := by simp
    have start : totalBytes (before ++ [text]) ≤ totalBytes ((before ++ [text]) ++ texts) := by
      rw [totalBytes_append (before ++ [text])]
      exact Nat.le_add_right _ _
    rw [length_cons] at counted
    rw [split] at fits together ⊢
    rw [totalBytes_concat] at start
    have visited : visitCandidate policy ⟨numbered before, totalBytes before⟩ text = .ok ⟨numbered (before ++ [text]), totalBytes (before ++ [text])⟩ := by
      rw [visitCandidate_eq_ok, numbered_concat, totalBytes_concat, length_numbered]
      simp only [maxInferenceCandidates] at few
      dsimp only
      exact ⟨⟨by omega, fits.each text (by simp), by omega, by omega, by omega⟩, rfl⟩
    rw [foldlM_cons, visited, ok_bind]
    apply ih fits
    rw [length_append, length_singleton]
    omega

end

theorem readItem_reads (text : Text) : Json.Begins (itemLexemes text) ∧ Json.Reads readItem (itemLexemes text) text :=
  ⟨⟨_, _, rfl, nofun⟩, Json.readSole_reads (Json.readString_reads _ text)⟩

theorem readEnvelope_reads (fits : Fits policy texts)
    (representable : policy.maximumAggregateCandidateBytes < 2 ^ 64) (counted : texts.length ≤ policy.expectedCount)
    (few : policy.expectedCount ≤ maxInferenceCandidates) :
    Json.Reads (readEnvelope policy) (envelopeLexemes texts) ⟨numbered texts, totalBytes texts⟩ := by
  have folded : (texts.map fun text => (itemLexemes text, text)).foldlM (fun state item => visitCandidate policy state item.2) ⟨[], 0⟩ =
      .ok ⟨numbered texts, totalBytes texts⟩ := by
    rw [foldlM_map]
    exact @foldlM_visitCandidate policy [] texts fits representable (by simpa using counted) few
  have array : Json.Reads (readSequence policy) (.mark .openBracket ::
      (Json.commaSeparated ((texts.map fun text => (itemLexemes text, text)).map Prod.fst) ++ [.mark .closeBracket]))
      ⟨numbered texts, totalBytes texts⟩ := by
    refine Json.readArray_reads ?_ folded
    intro item member
    obtain ⟨text, -, rfl⟩ := mem_map.mp member
    exact readItem_reads text
  rw [map_map] at array
  exact Json.readSole_reads array

theorem byteLen_itemText (item : Text × Text) : byteLen (itemText item) = byteLen item.1 + byteLen item.2 + 7 := by
  have sizes : '\x7b'.utf8Size = 1 ∧ '\x22'.utf8Size = 1 ∧ ':'.utf8Size = 1 ∧ '\x7d'.utf8Size = 1 := by decide
  simp only [itemText, Json.quoted, byteLen_cons, byteLen_append, byteLen_nil, sizes]
  omega

/-- The bytes of the field names in the items. -/
def fieldBytes (items : List (Text × Text)) : Nat := totalBytes (items.map Prod.fst)

theorem byteLen_followed (items : List (Text × Text)) :
    byteLen ((items.map itemText).flatMap (',' :: ·)) = fieldBytes items + totalBytes (items.map Prod.snd) + 8 * items.length := by
  have comma : ','.utf8Size = 1 := by decide
  induction items with
  | nil => rfl
  | cons item items ih =>
    simp only [fieldBytes, totalBytes, map_cons, flatMap_cons, byteLen_append, byteLen_cons, sum_cons, length_cons,
      byteLen_itemText, comma] at ih ⊢
    omega

theorem byteLen_envelopeText (nonempty : items ≠ []) :
    byteLen (envelopeText name items) = byteLen name + fieldBytes items + totalBytes (items.map Prod.snd) + 8 * items.length + 6 := by
  have sizes : '\x7b'.utf8Size = 1 ∧ '\x22'.utf8Size = 1 ∧ ':'.utf8Size = 1 ∧ '\x7d'.utf8Size = 1 ∧ '['.utf8Size = 1 ∧ ']'.utf8Size = 1 ∧
    ','.utf8Size = 1 := by decide
  obtain ⟨first, items, rfl⟩ := exists_cons_of_ne_nil nonempty
  have others := byteLen_followed (first :: items)
  rw [map_cons, flatMap_cons, byteLen_append, byteLen_cons] at others
  simp only [envelopeText, Json.quoted, map_cons, Json.intercalate_cons, byteLen_cons, byteLen_append, byteLen_nil, sizes] at others ⊢
  omega

theorem totalBytes_le (spelled : List.Forall₂ Spelled items texts) : totalBytes (items.map Prod.snd) ≤ 6 * totalBytes texts := by
  induction spelled with
  | nil => exact Nat.le_refl _
  | cons first _ ih =>
    have here := first.2.byteLen_le
    simp only [totalBytes, map_cons, sum_cons] at ih ⊢
    omega

/-- What a spelled envelope is read as depends on its length alone. -/
theorem parse_envelopeText (scanner : Json.Scanner)
    (accepted : new count candidateBytes aggregateBytes = .ok policy) (counted : texts.length = count)
    (fits : Fits policy texts) (field : Json.Escapes name "candidates".toList) (spelled : List.Forall₂ Spelled items texts) :
    parse scanner (encode (envelopeText name items)) policy =
      if byteLen (envelopeText name items) ≤ policy.maximumEnvelopeBytes then .ok (numbered texts) else .error .envelopeTooLarge := by
  obtain ⟨⟨positive, few, -, -, useful, inside, -⟩, rfl⟩ := new_eq_ok.mp accepted
  have read := readEnvelope_reads fits (by simp only; omega) (by simp only; omega) (by simpa using few) []
  rw [append_nil] at read
  rw [parse, accepted, ok_bind, length_encode, decode_encode]
  by_cases short : byteLen (envelopeText name items) ≤ aggregateBytes * 6 + (count * 12 + 16 + 256)
  · simp only [require, short, if_true, ok_bind, scanner.conforms (spells_envelope field spelled), read, length_numbered, counted]
  · simp only [require, short, if_false, bind, Except.bind]

theorem parse_eq_ok (scanner : Json.Scanner) {bytes : Bytes} {candidates : List GenerationCandidate}
    (accepted : new count candidateBytes aggregateBytes = .ok policy)
    (parsed : parse scanner bytes policy = .ok candidates) :
    ∃ texts, candidates = numbered texts ∧ texts.length = count ∧ Fits policy texts := by
  obtain ⟨-, rfl⟩ := new_eq_ok.mp accepted
  rw [parse, accepted, ok_bind] at parsed
  obtain ⟨_, -, parsed⟩ := bind_eq_ok.mp parsed
  split at parsed
  next => cases parsed
  next input decoded =>
    simp only [bind_eq_ok, exists_unit, require_eq_ok, Prod.exists] at parsed
    obtain ⟨received, rest, read, -, counted, same⟩ := parsed
    cases same
    obtain ⟨inner, after, read⟩ := Json.readSole_eq_ok read
    have initial : Within ⟨count, candidateBytes, aggregateBytes, aggregateBytes * 6 + (count * 12 + 16 + 256)⟩ ⟨[], 0⟩ :=
      ⟨[], rfl, by rintro _ ⟨⟩, Nat.zero_le _⟩
    obtain ⟨texts, rfl, fits⟩ := Json.readArray_keeps Within.visit initial read
    exact ⟨texts, rfl, (length_numbered texts).symm.trans counted, fits⟩

theorem byteLen_envelopeText_le (accepted : new count candidateBytes aggregateBytes = .ok policy)
    (counted : texts.length = count) (fits : Fits policy texts) (spelled : List.Forall₂ Spelled items texts)
    (allowed : byteLen name + fieldBytes items ≤ 10 + 4 * count + rawEnvelopeAllowanceBytes) :
    byteLen (envelopeText name items) ≤ policy.maximumEnvelopeBytes := by
  obtain ⟨⟨positive, -⟩, rfl⟩ := new_eq_ok.mp accepted
  have length := spelled.length_eq
  have nonempty : items ≠ [] := by
    rintro rfl
    rw [length_nil] at length
    omega
  have escaped := totalBytes_le spelled
  have together := fits.together
  rw [byteLen_envelopeText nonempty, length, counted]
  simp only [rawEnvelopeAllowanceBytes] at *
  omega

theorem fieldBytes_compact (bodies : List Text) : fieldBytes (bodies.map fun body => ("text".toList, body)) = 4 * bodies.length := by
  have field : byteLen "text".toList = 4 := by decide
  induction bodies with
  | nil => rfl
  | cons body bodies ih =>
    simp only [fieldBytes, totalBytes, map_cons, sum_cons, length_cons, field] at ih ⊢
    omega

theorem spelled_compact {bodies : List Text} (spelled : List.Forall₂ Json.Escapes bodies texts) :
    List.Forall₂ Spelled (bodies.map fun body => ("text".toList, body)) texts := by
  have field : Json.Escapes "text".toList "text".toList := Json.Escapes.self (all_iff_forall_prop.mp rfl)
  rw [forall₂_map_left_iff]
  exact spelled.imp fun _ _ here => ⟨field, here⟩

/-- Envelopes are read soundly and completely. With the field names as they are, every envelope of texts
within the ceilings is short enough and is read as those texts; with the names spelled in other ways the
allowance of the envelope decides; and whatever is read has the right number of texts within the ceilings. -/
theorem envelopes_are_read_exactly (scanner : Json.Scanner) (count candidateBytes aggregateBytes : Nat) (policy : CandidateOutputPolicy)
    (accepted : new count candidateBytes aggregateBytes = .ok policy) :
    (∀ texts bodies, texts.length = count → Fits policy texts → List.Forall₂ Json.Escapes bodies texts →
      byteLen (compactEnvelope bodies) ≤ policy.maximumEnvelopeBytes ∧
        parse scanner (encode (compactEnvelope bodies)) policy = .ok (numbered texts)) ∧
    (∀ texts name items, texts.length = count → Fits policy texts → Json.Escapes name "candidates".toList → List.Forall₂ Spelled items texts →
      (byteLen name + fieldBytes items ≤ 10 + 4 * count + rawEnvelopeAllowanceBytes →
        byteLen (envelopeText name items) ≤ policy.maximumEnvelopeBytes) ∧ parse scanner (encode (envelopeText name items)) policy =
        if byteLen (envelopeText name items) ≤ policy.maximumEnvelopeBytes then .ok (numbered texts) else .error .envelopeTooLarge) ∧
    ∀ bytes candidates, parse scanner bytes policy = .ok candidates →
      ∃ texts, candidates = numbered texts ∧ texts.length = count ∧ Fits policy texts := by
  have general (texts name items) (counted : texts.length = count) (fits : Fits policy texts) (field : Json.Escapes name "candidates".toList)
      (spelled : List.Forall₂ Spelled items texts) := parse_envelopeText scanner accepted counted fits field spelled
  refine ⟨?_, ?_, fun bytes candidates => parse_eq_ok scanner accepted⟩
  · intro texts bodies counted fits escaped
    have spelled := spelled_compact escaped
    have field : byteLen "candidates".toList = 10 := by decide
    have short : byteLen (compactEnvelope bodies) ≤ policy.maximumEnvelopeBytes := by
      apply byteLen_envelopeText_le accepted counted fits spelled
      rw [fieldBytes_compact, escaped.length_eq, counted, field]
      omega
    have parsed := general texts _ _ counted fits (Json.Escapes.self (all_iff_forall_prop.mp rfl)) spelled
    rw [← compactEnvelope, if_pos short] at parsed
    exact ⟨short, parsed⟩
  · intro texts name items counted fits field spelled
    exact ⟨byteLen_envelopeText_le accepted counted fits spelled, general texts name items counted fits field spelled⟩

theorem envelopes_are_read_exactly_pair : new 2 1 2 = .ok ⟨2, 1, 2, 308⟩ ∧
      parse .strict (encode (compactEnvelope ["a".toList, "\\u000a".toList])) ⟨2, 1, 2, 308⟩ = .ok [⟨0, "a".toList⟩, ⟨1, "\n".toList⟩] := by
  have accepted : new 2 1 2 = .ok ⟨2, 1, 2, 308⟩ := by decide
  have escaped : List.Forall₂ Json.Escapes ["a".toList, "\\u000a".toList] ["a".toList, "\n".toList] :=
    .cons (Json.Escapes.self (all_iff_forall_prop.mp rfl)) (.cons (.unit (by decide) .nil) .nil)
  obtain ⟨-, parsed⟩ := (envelopes_are_read_exactly .strict 2 1 2 _ accepted).1 _ _ rfl ⟨by decide, by decide⟩ escaped
  exact ⟨accepted, parsed⟩

end Retonr.CandidateOutput
