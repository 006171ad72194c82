import Retonr.OllamaPackage.Gguf

/-! What an accepted GGUF blob is. Every byte the inspection consumes belongs to a field of a
well-formed file, and the position and what remains add up to the declared size after every read,
whatever the file declares. -/

namespace Retonr.Gguf
open Text Framing ExactReader Retonr.Parser List

/-- The part of the stream that has been hashed and the part still to come make up the blob, and the
counters agree with it. -/
structure ReaderInv (blob : Bytes) (declared : Nat) (reader : ExactReader) : Prop where
  total : reader.position + reader.remaining = declared
  hashed : reader.hasher.length = reader.position
  stream : reader.hasher ++ reader.inner.bytes = blob
  trace : ∀ mark ∈ reader.trace, mark.position + mark.remaining = declared

def discipline (blob : Bytes) (declared : Nat) : Discipline ExactReader Stop UInt8 where
  consumed := hasher
  inv := ReaderInv blob declared
  allowed := (· ≠ .wrapped)

/-- A typed metadata value. A string's payload is its bytes, any other scalar's its fixed-width bytes. -/
inductive MetadataValue where
  | scalar (valueType : Nat) (payload : Bytes)
  | array (elementType : Nat) (elements : List Bytes)

def scalarWidth : Nat → Option Nat
  | 0 | 1 | 7 => some 1
  | 2 | 3 => some 2
  | 4 | 5 | 6 => some 4
  | 10 | 11 | 12 => some 8
  | _ => none

/-- A payload the type allows. -/
structure ValidScalar (valueType : Nat) (payload : Bytes) : Prop where
  small : payload.length < 2 ^ 64
  width : valueType ≠ 8 → scalarWidth valueType = some payload.length
  text : valueType = 8 → ∃ text, decode payload = .ok text
  boolean : valueType = 7 → littleEndianNat payload ≤ 1

def scalarBytes (valueType : Nat) (payload : Bytes) : Bytes :=
  if valueType = 8 then littleEndian 8 payload.length ++ payload else payload

namespace MetadataValue

def valueType : MetadataValue → Nat
  | scalar valueType _ => valueType
  | array _ _ => 9

/-- The value as it stands in the table, its type included. -/
def bytes : MetadataValue → Bytes
  | scalar valueType payload => littleEndian 4 valueType ++ scalarBytes valueType payload
  | array elementType elements =>
      littleEndian 4 9 ++ (littleEndian 4 elementType ++ (littleEndian 8 elements.length ++ elements.flatMap (scalarBytes elementType)))

def u32Value : MetadataValue → Option Nat
  | scalar 4 payload => some (littleEndianNat payload)
  | _ => none

def stringValue : MetadataValue → Option Bytes
  | scalar 8 payload => some payload
  | _ => none

def digest (value : MetadataValue) : Digest := Digest.sha256 (valueDomain ++ value.bytes)

/-- What parsing the value yields. -/
def parsed (value : MetadataValue) : ParsedValue := ⟨value.digest, value.u32Value, value.stringValue⟩

def Valid : MetadataValue → Prop
  | scalar valueType payload => valueType < 2 ^ 32 ∧ ValidScalar valueType payload
  | array elementType elements =>
      elementType ≠ 9 ∧ elementType ≤ 12 ∧ elements.length < 2 ^ 64 ∧ ∀ element ∈ elements, ValidScalar elementType element

end MetadataValue

/-- An entry as it stands in the table. -/
def entryBytes (entry : Text × MetadataValue) : Bytes := littleEndian 8 entry.1.byteLen ++ (encode entry.1 ++ entry.2.bytes)

structure ValidEntry (limits : GgufLimits) (entry : Text × MetadataValue) : Prop where
  key : validMetadataKey entry.1 = true
  short : entry.1.byteLen ≤ limits.nameBytes
  small : entry.1.byteLen < 2 ^ 64
  value : entry.2.Valid
  template : entry.1 = chatTemplateKey → entry.2.valueType = 8

/-- What is kept of the entry under a special key: what its value gives, or the initial value. -/
structure Tracks {α : Type} (entries : List (Text × MetadataValue)) (special : Text) (initial : α) (gives : ParsedValue → α → Prop)
    (current : α) : Prop where
  present : ∀ value, (special, value) ∈ entries → gives value.parsed current
  absent : (∀ value, (special, value) ∉ entries) → current = initial

theorem Tracks.snoc {α : Type} {entries : List (Text × MetadataValue)} {special : Text} {initial current next : α}
    {gives : ParsedValue → α → Prop} (tracks : Tracks entries special initial gives current) {entry : Text × MetadataValue}
    (fresh : entry.1 ∉ entries.map Prod.fst) (noted : if entry.1 = special then gives entry.2.parsed next else next = current) :
    Tracks (entries ++ [entry]) special initial gives next := by
  obtain ⟨key, value⟩ := entry
  constructor
  · intro other member
    rcases mem_append.mp member with before | here
    · have different : key ≠ special := fun same => fresh (mem_map.mpr ⟨_, before, same.symm⟩)
      rw [if_neg different] at noted
      exact noted ▸ tracks.present other before
    · cases mem_singleton.mp here
      rwa [if_pos rfl] at noted
  · intro absent
    have different : key ≠ special := fun same => absent value (by simp [same])
    rw [if_neg different] at noted
    exact noted.trans (tracks.absent fun other before => absent other (mem_append_left _ before))

def givesAlignment (parsed : ParsedValue) (alignment : Nat) : Prop := parsed.u32Value = some alignment

def givesArchitecture (parsed : ParsedValue) (architecture : Option Text) : Prop :=
  ∃ payload text, parsed.stringValue = some payload ∧ decode payload = .ok text ∧ validArchitecture text = true ∧ architecture = some text

def givesPrompt (parsed : ParsedValue) (prompt : Option Digest) : Prop :=
  ∃ payload, parsed.stringValue = some payload ∧ prompt = some (Digest.sha256 payload)

/-- The state of the loop after these entries. -/
structure Noted (limits : GgufLimits) (entries : List (Text × MetadataValue)) (state : MetadataState) : Prop where
  valid : ∀ entry ∈ entries, ValidEntry limits entry
  distinct : (entries.map Prod.fst).Nodup
  values : state.values.rows = entries.map fun entry => (entry.1, entry.2.digest)
  alignment : Tracks entries alignmentKey defaultAlignment givesAlignment state.alignment
  architecture : Tracks entries architectureKey none givesArchitecture state.architecture
  prompt : Tracks entries chatTemplateKey none givesPrompt state.prompt

structure TensorEntry where
  name : Text
  dimensions : List Nat
  (tensorType offset : Nat)

def TensorEntry.bytes (tensor : TensorEntry) : Bytes :=
  littleEndian 8 tensor.name.byteLen ++ (encode tensor.name ++ (littleEndian 4 tensor.dimensions.length ++
    (tensor.dimensions.flatMap (littleEndian 8) ++ (littleEndian 4 tensor.tensorType ++ littleEndian 8 tensor.offset))))

structure ValidTensor (limits : GgufLimits) (tensor : TensorEntry) : Prop where
  named : tensor.name ≠ []
  short : tensor.name.byteLen ≤ limits.nameBytes
  dimensions : 1 ≤ tensor.dimensions.length ∧ tensor.dimensions.length ≤ 4
  words : ∀ dimension ∈ tensor.dimensions, dimension < 2 ^ 64
  elements : tensor.dimensions.foldl (· * ·) 1 < 2 ^ 64 ∧ tensor.dimensions.foldl (· * ·) 1 ≠ 0
  supported : supportedTensorType tensor.tensorType = true
  offset : tensor.offset < 2 ^ 64

section
variable {blob : Bytes} {declared : Nat}

theorem ReaderInv.polled {reader : ExactReader} (inv : ReaderInv blob declared reader) : ReaderInv blob declared reader.polled :=
  { inv with }

theorem poll_reads : Reads (discipline blob declared) poll fun _ _ items => items = [] where
  keeps _ inv := inv.polled
  fails reader _ fault failed := by
    change (if reader.cancelled.requested reader.cancelled.polls then Except.error (Stop.error .cancelled) else .ok ()) = _ at failed
    split at failed <;> cases failed
    nofun
  reads reader _ _ _ := ⟨[], (append_nil _).symm, rfl⟩

theorem getPosition_reads : Reads (discipline blob declared) getPosition fun offset value items => items = [] ∧ value = offset where
  keeps _ inv := inv
  fails _ _ _ failed := by cases failed
  reads reader inv value done := by
    cases done
    exact ⟨[], (append_nil _).symm, rfl, inv.hashed.symm⟩

theorem getRemaining_reads : Reads (discipline blob declared) getRemaining fun offset value items => items = [] ∧ offset + value = declared where
  keeps _ inv := inv
  fails _ _ _ failed := by cases failed
  reads reader inv value done := by
    cases done
    exact ⟨[], (append_nil _).symm, rfl, by rw [← inv.total, ← inv.hashed]; rfl⟩

theorem byteDigest_reads : Reads (discipline blob declared) byteDigest fun offset value items =>
    items = [] ∧ (offset = blob.length → value = Digest.sha256 blob) where
  keeps _ inv := inv
  fails _ _ _ failed := by cases failed
  reads reader inv value done := by
    cases done
    refine ⟨[], (append_nil _).symm, rfl, fun whole => ?_⟩
    have whole : reader.hasher.length = blob.length := whole
    have stream := inv.stream
    rw [← stream, length_append, Nat.left_eq_add, length_eq_zero_iff] at whole
    rw [← stream, whole, append_nil]

theorem readTrailing_reads : Reads (discipline blob declared) readTrailing fun offset _ items => items = [] ∧ offset = blob.length := by
  have kept : ∀ reader : ExactReader, (readTrailing.start reader).2 = { reader with inner := reader.inner.called } := by
    intro reader
    change { reader with inner := reader.inner.readTrailing.2 } = _
    unfold Reader.readTrailing
    split
    · rfl
    · split <;> rfl
  constructor
  · intro reader inv
    rw [kept]
    exact { inv with }
  · intro reader _ fault failed
    change reader.inner.readTrailing.1.mapError Stop.error = .error fault at failed
    cases found : reader.inner.readTrailing.1 with
    | ok _ => simp [found, Except.mapError] at failed
    | error error =>
      rw [found] at failed
      cases failed
      nofun
  · intro reader inv value done
    refine ⟨[], by rw [kept]; exact (append_nil _).symm, rfl, ?_⟩
    change reader.inner.readTrailing.1.mapError Stop.error = .ok value at done
    unfold Reader.readTrailing at done
    split at done
    · cases done
    · split at done
      next empty =>
        have stream := inv.stream
        rw [isEmpty_iff.mp empty, append_nil] at stream
        exact congrArg List.length stream
      · cases done

theorem readExact_start (length : Nat) (reader : ExactReader) : (readExact length).start reader =
    if reader.cancelled.requested reader.cancelled.polls then (.error (.error .cancelled), reader.polled)
    else if length ≤ reader.remaining then (readInner length).start reader.polled else (.error (.error .blobSizeMismatch), reader.polled) := by
  have polls : poll.start reader =
      (if reader.cancelled.requested reader.cancelled.polls then .error (.error .cancelled) else .ok (), reader.polled) := rfl
  have asks : getRemaining.start reader.polled = (.ok reader.remaining, reader.polled) := rfl
  by_cases requested : reader.cancelled.requested reader.cancelled.polls = true
  · simp only [readExact, start_bind, polls, if_pos requested]
  · simp only [readExact, start_bind, polls, if_neg requested, asks, start_require]
    by_cases room : length ≤ reader.remaining
    · simp only [if_pos room]
    · simp only [if_neg room]

theorem require_reads {condition : Prop} [Decidable condition] {error : ReconstructionError} :
    Reads (discipline blob declared) (Parser.require condition (.error error)) fun _ _ items => items = [] ∧ condition :=
  .require (by simp [discipline])

theorem fromUtf8_reads (bytes : Bytes) :
    Reads (discipline blob declared) (fromUtf8 bytes) fun _ text items => items = [] ∧ decode bytes = .ok text := by
  unfold fromUtf8
  split
  next text decoded => exact .pure fun _ => ⟨rfl, decoded⟩
  · exact .throw nofun

theorem enforcePosition_reads (maximum : Nat) :
    Reads (discipline blob declared) (enforcePosition maximum) fun offset _ items => items = [] ∧ offset ≤ maximum := by
  refine getPosition_reads.bind fun position => require_reads.mono ?_
  rintro _ _ _ ⟨rfl, bounded⟩ _ _ - ⟨rfl, rfl⟩
  exact ⟨rfl, bounded⟩

theorem expected_reads {α : Type} (part : Option α) :
    Reads (discipline blob declared) (expected part) fun _ value items => items = [] ∧ part = some value := by
  cases part with
  | some value => exact .pure fun _ => ⟨rfl, rfl⟩
  | none => exact .throw nofun

theorem noteAlignment_reads (key : Text) (parsed : ParsedValue) (alignment : Nat) :
    Reads (discipline blob declared) (noteAlignment key parsed alignment) fun _ next items =>
      items = [] ∧ if key = alignmentKey then givesAlignment parsed next else next = alignment := by
  unfold noteAlignment
  split
  · exact expected_reads _
  · exact .pure fun _ => ⟨rfl, rfl⟩

theorem noteArchitecture_reads (key : Text) (parsed : ParsedValue) (architecture : Option Text) :
    Reads (discipline blob declared) (noteArchitecture key parsed architecture)
      fun _ next items => items = [] ∧ if key = architectureKey then givesArchitecture parsed next else next = architecture := by
  unfold noteArchitecture
  split
  · refine (expected_reads _).bind fun payload => (fromUtf8_reads _).bind fun text => require_reads.bind fun _ => .pure ?_
    rintro _ _ _ - ⟨rfl, valid⟩ _ _ - ⟨rfl, decoded⟩ _ _ - ⟨rfl, string⟩
    exact ⟨rfl, payload, text, string, decoded, valid, rfl⟩
  · exact .pure fun _ => ⟨rfl, rfl⟩

theorem notePrompt_reads (key : Text) (parsed : ParsedValue) (prompt : Option Digest) :
    Reads (discipline blob declared) (notePrompt key parsed prompt)
      fun _ next items => items = [] ∧ if key = chatTemplateKey then givesPrompt parsed next else next = prompt := by
  unfold notePrompt
  split
  · refine (expected_reads _).bind fun payload => .pure ?_
    rintro _ _ _ - ⟨rfl, string⟩
    exact ⟨rfl, payload, string, rfl⟩
  · exact .pure fun _ => ⟨rfl, rfl⟩

theorem subtract_reads {value other : Nat} (ordered : other ≤ value) :
    Reads (discipline blob declared) (subtract value other) fun _ result items => items = [] ∧ result + other = value := by
  have holds : Parser.require (other ≤ value) Stop.wrapped = (pure () : Parse Unit) := by rw [Parser.require, if_pos ordered]
  unfold subtract
  rw [holds]
  exact .pure fun _ => ⟨rfl, by omega⟩

/-- Clearing the low bits rounds down to a multiple of a power of two. -/
theorem and_mask {value exponent : Nat} (fits : value < 2 ^ 64) (small : exponent ≤ 64) :
    value &&& (2 ^ 64 - 2 ^ exponent) = value / 2 ^ exponent * 2 ^ exponent := by
  have positive := Nat.two_pow_pos exponent
  have bounded : 2 ^ exponent ≤ 2 ^ 64 := Nat.pow_le_pow_right (by decide) small
  have mask : 2 ^ 64 - 2 ^ exponent = 2 ^ 64 - (2 ^ exponent - 1 + 1) := by omega
  apply Nat.eq_of_testBit_eq
  intro index
  rw [Nat.testBit_and, mask, Nat.testBit_two_pow_sub_succ (by omega), Nat.testBit_two_pow_sub_one, Nat.testBit_mul_two_pow,
    Nat.testBit_div_two_pow]
  by_cases low : index < exponent
  · simp [low]
  · have inside : exponent + (index - exponent) = index := by omega
    by_cases high : index < 64
    · simp [low, high, Nat.not_lt.mp low]
    · have beyond : value.testBit index = false := Nat.testBit_lt_two_pow (lt_of_lt_of_le fits (Nat.pow_le_pow_right (by decide) (by omega)))
      simp [low, Nat.not_lt.mp low, beyond]

theorem alignUp_reads (value : Nat) {alignment : Nat} (positive : 1 ≤ alignment) (power : isPowerOfTwo alignment = true) :
    Reads (discipline blob declared) (alignUp value alignment) fun _ aligned items =>
      items = [] ∧ alignment ∣ aligned ∧ value ≤ aligned ∧ aligned < value + alignment := by
  refine (subtract_reads positive).bind fun mask => require_reads.bind fun _ => .pure ?_
  rintro _ _ _ - ⟨rfl, fits⟩ _ _ - ⟨rfl, rfl⟩
  refine ⟨rfl, ?_⟩
  obtain ⟨exponent, power⟩ : ∃ exponent, mask + 1 = 2 ^ exponent := ⟨_, by simpa [isPowerOfTwo] using power⟩
  have small : exponent ≤ 64 := by
    by_contra large
    have grows : 2 ^ 65 ≤ 2 ^ exponent := Nat.pow_le_pow_right (by decide) (by omega)
    omega
  have rounds := and_mask fits small
  have complement : 2 ^ 64 - 1 - mask = 2 ^ 64 - 2 ^ exponent := by omega
  rw [complement, rounds, power]
  have division := Nat.div_add_mod' (value + mask) (2 ^ exponent)
  have rest := Nat.mod_lt (value + mask) (Nat.two_pow_pos exponent)
  exact ⟨Nat.dvd_mul_left _ _, by omega, by omega⟩

variable (small : declared < 2 ^ 64)
include small

omit small in
theorem readInner_start {length : Nat} {reader : ExactReader} (fits : length ≤ reader.remaining ∧ reader.position + length < 2 ^ 64) :
    (readInner length).start reader = match reader.inner.readExact length with
      | (.error fault, rest) => (.error (.error fault), { reader with inner := rest })
      | (.ok output, rest) => (.ok output, { reader with
          inner := rest
          hasher := reader.hasher ++ output
          remaining := reader.remaining - length
          position := reader.position + length
          trace := ⟨reader.position + length, reader.remaining - length⟩ :: reader.trace }) := by
  show (readInner length) reader = _
  unfold readInner
  simp only [ExceptT.mk, if_pos fits]
  rfl

theorem readInner_keeps {length : Nat} {reader : ExactReader} (inv : ReaderInv blob declared reader) (room : length ≤ reader.remaining) :
    ReaderInv blob declared ((readInner length).start reader).2 ∧
      match ((readInner length).start reader).1 with
      | .error fault => fault ≠ .wrapped
      | .ok output => output.length = length ∧ ((readInner length).start reader).2.hasher = reader.hasher ++ output := by
  have total := inv.total
  rw [readInner_start ⟨room, by omega⟩]
  unfold Reader.readExact
  split
  next faulty =>
    split at faulty
    · cases faulty
      exact ⟨{ inv with }, by rintro ⟨⟩⟩
    · split at faulty
      · cases faulty
        exact ⟨{ inv with }, by rintro ⟨⟩⟩
      · cases faulty
  next output inner done =>
    split at done
    · cases done
    · split at done
      · cases done
      next enough =>
        cases done
        have size : (reader.inner.bytes.take length).length = length := by simp; omega
        refine ⟨⟨by simp; omega, ?_, ?_, ?_⟩, size, rfl⟩
        · simp only [length_append, size, inv.hashed]
        · simp [← inv.stream]
        · simp only [forall_mem_cons]
          exact ⟨by omega, inv.trace⟩

theorem readExact_reads (length : Nat) :
    Reads (discipline blob declared) (readExact length) fun _ value items => items = value ∧ value.length = length := by
  constructor
  · intro reader inv
    rw [readExact_start]
    split
    · exact inv.polled
    · split
      next room => exact (readInner_keeps small inv.polled room).1
      · exact inv.polled
  · intro reader inv fault failed
    rw [readExact_start] at failed
    split at failed
    · cases failed
      nofun
    · split at failed
      next room =>
        have kept := (readInner_keeps small inv.polled room).2
        rw [failed] at kept
        exact kept
      · cases failed
        nofun
  · intro reader inv value done
    rw [readExact_start] at done ⊢
    split at done
    · cases done
    · split at done
      next requested room =>
        have kept := (readInner_keeps small inv.polled room).2
        rw [done] at kept
        rw [if_neg requested, if_pos room]
        exact ⟨value, kept.2, rfl, kept.1⟩
      · cases done

theorem readU32_reads : Reads (discipline blob declared) readU32 fun _ value items => items = littleEndian 4 value ∧ value < 2 ^ 32 := by
  refine (readExact_reads small 4).bind fun _ => .pure ?_
  rintro _ _ bytes - ⟨rfl, size⟩
  have fits := littleEndianNat_lt bytes
  rw [size] at fits
  exact ⟨by rw [append_nil, ← size, littleEndian_nat], fits⟩

theorem readU64_reads : Reads (discipline blob declared) readU64 fun _ value items => items = littleEndian 8 value ∧ value < 2 ^ 64 := by
  refine (readExact_reads small 8).bind fun _ => .pure ?_
  rintro _ _ bytes - ⟨rfl, size⟩
  have fits := littleEndianNat_lt bytes
  rw [size] at fits
  exact ⟨by rw [append_nil, ← size, littleEndian_nat], fits⟩

theorem readVector_reads (length : Nat) :
    Reads (discipline blob declared) (readVector length) fun _ value items => items = value ∧ value.length = length := by
  refine require_reads.bind fun _ => (readExact_reads small length).mono ?_
  rintro _ value _ ⟨rfl, size⟩ _ _ - ⟨rfl, -⟩
  exact ⟨rfl, size⟩

theorem readUtf8_reads (maximum : Nat) : Reads (discipline blob declared) (readUtf8 maximum) fun _ text items =>
    items = littleEndian 8 text.byteLen ++ encode text ∧ text.byteLen ≤ maximum ∧ text.byteLen < 2 ^ 64 := by
  refine (readU64_reads small).bind fun length => require_reads.bind fun _ => (readVector_reads small length).bind fun _ =>
    (fromUtf8_reads _).mono ?_
  rintro _ text _ ⟨rfl, decoded⟩ _ bytes - ⟨rfl, rfl⟩ _ _ - ⟨rfl, bounded⟩ _ _ - ⟨rfl, fits⟩
  have encoded := encode_of_decode decoded
  have size : text.byteLen = bytes.length := by rw [← encoded, length_encode]
  rw [size, encoded]
  exact ⟨by simp, bounded, fits⟩

theorem readRest_reads (rounds : Nat) : Reads (discipline blob declared) (readRest rounds) fun offset _ items =>
    declared ≤ offset + rounds → declared ≤ offset + items.length := by
  induction rounds with
  | zero => exact .pure fun offset enough => by simpa using enough
  | succ rounds ih =>
    refine getRemaining_reads.bind fun remaining => ?_
    split
    next ended =>
      refine .pure ?_
      rintro _ _ _ - ⟨rfl, total⟩ -
      simp only [ended, append_nil, length_nil] at total ⊢
      omega
    next more =>
      refine (readExact_reads small _).bind fun chunk => ih.mono ?_
      rintro offset _ items rest start _ here ⟨rfl, size⟩ first _ there ⟨rfl, total⟩ enough
      simp only [length_append, length_nil] at *
      omega

theorem finish_reads : Reads (discipline blob declared) finish fun offset digest items =>
    declared ≤ offset + items.length ∧ offset + items.length = blob.length ∧ digest = Digest.sha256 blob := by
  refine getRemaining_reads.bind fun remaining => (readRest_reads small remaining).bind fun _ => poll_reads.bind fun _ =>
    readTrailing_reads.bind fun _ => byteDigest_reads.mono ?_
  rintro _ digest _ ⟨rfl, whole⟩ _ _ here ⟨rfl, last⟩ _ _ there rfl _ items rest read start _ first ⟨rfl, total⟩
  simp only [length_nil, Nat.add_zero, append_nil, nil_append] at *
  exact ⟨by omega, by omega, whole (by omega)⟩

/-- What parsing a scalar yields, for what has been hashed before it. -/
def ScalarParsed (valueType : Nat) (hasher : Bytes) (parsed : Bytes × Option Nat × Option Bytes) (items : Bytes) : Prop :=
  ∃ payload, ValidScalar valueType payload ∧ items = scalarBytes valueType payload ∧
    parsed = (hasher ++ items, (MetadataValue.scalar valueType payload).u32Value, (MetadataValue.scalar valueType payload).stringValue)

theorem fixedScalar_reads {valueType width : Nat} (hasher : Bytes) (u32Value : Bytes → Option Nat)
    (wide : scalarWidth valueType = some width) (short : width < 2 ^ 64) (text : valueType ≠ 8) (boolean : valueType ≠ 7)
    (word : ∀ payload, (MetadataValue.scalar valueType payload).u32Value = u32Value payload)
    (string : ∀ payload, (MetadataValue.scalar valueType payload).stringValue = none) :
    Reads (discipline blob declared) (do
      let bytes ← readExact width
      pure (hasher ++ bytes, u32Value bytes, none)) fun _ => ScalarParsed valueType hasher := by
  refine (readExact_reads small width).bind fun _ => .pure ?_
  rintro _ _ payload - ⟨rfl, size⟩
  rw [append_nil]
  refine ⟨payload, ⟨size ▸ short, fun _ => size ▸ wide, fun same => absurd same text, fun same => absurd same boolean⟩, ?_, ?_⟩
  · rw [scalarBytes, if_neg text]
  · rw [word, string]

theorem parseScalar_reads (valueType : Nat) (limits : GgufLimits) (hasher : Bytes) :
    Reads (discipline blob declared) (parseScalar valueType limits hasher) fun _ => ScalarParsed valueType hasher := by
  unfold parseScalar
  split
  case h_8 =>
    refine (readExact_reads small 1).bind fun _ => require_reads.bind fun _ => .pure ?_
    rintro _ _ _ - ⟨rfl, boolean⟩ _ payload - ⟨rfl, size⟩
    simp only [append_nil]
    exact ⟨payload, ⟨by omega, fun _ => by simp [scalarWidth, size], nofun, fun _ => boolean⟩, rfl, rfl⟩
  case h_9 =>
    refine (readU64_reads small).bind fun length => require_reads.bind fun _ => (readVector_reads small length).bind fun _ =>
      (fromUtf8_reads _).bind fun text => .pure ?_
    rintro _ _ _ - ⟨rfl, decoded⟩ _ payload - ⟨rfl, rfl⟩ _ _ - ⟨rfl, -⟩ _ _ - ⟨rfl, fits⟩
    simp only [append_nil, nil_append, append_assoc]
    exact ⟨payload, ⟨fits, fun other => absurd rfl other, fun _ => ⟨text, decoded⟩, nofun⟩, rfl, rfl⟩
  case h_13 => exact .throw nofun
  all_goals exact fixedScalar_reads small hasher _ rfl (by decide) (by decide) (by decide) (fun _ => rfl) fun _ => rfl

/-- So many elements of an array have been read and hashed. -/
def ElementsRead (elementType : Nat) (hasher : Bytes) (count _offset : Nat) (hashed items : Bytes) : Prop :=
  ∃ elements : List Bytes, elements.length = count ∧ (∀ element ∈ elements, ValidScalar elementType element) ∧
    items = elements.flatMap (scalarBytes elementType) ∧ hashed = hasher ++ items

theorem elements_read (elementType : Nat) (limits : GgufLimits) (hasher : Bytes) (count : Nat) :
    Reads (discipline blob declared) (Parser.repeatM (fun hasher => do
      let (hashed, _) ← parseScalar elementType limits hasher
      pure hashed) count hasher) (ElementsRead elementType hasher count) := by
  refine .repeatM (ElementsRead elementType hasher) count (fun _ => ⟨[], rfl, by simp, rfl, by simp⟩) fun index hashed _ => ?_
  refine (parseScalar_reads small elementType limits hashed).bind fun _ => .pure ?_
  rintro _ _ _ - ⟨payload, valid, rfl, rfl⟩ _ _ - ⟨elements, size, validBefore, rfl, rfl⟩
  exact ⟨elements ++ [payload], by simp [size], forall_mem_append.mpr ⟨validBefore, forall_mem_singleton.mpr valid⟩, by simp, by simp⟩

theorem parseArray_reads (limits : GgufLimits) (total : Nat) (hasher : Bytes) :
    Reads (discipline blob declared) (parseArray limits total hasher) fun _ parsed items => ∃ elementType elements,
      (MetadataValue.array elementType elements).Valid ∧ littleEndian 4 9 ++ items = (MetadataValue.array elementType elements).bytes ∧
        parsed.2 = hasher ++ items := by
  refine (readU32_reads small).bind fun elementType => require_reads.bind fun _ => (readU64_reads small).bind fun count =>
    require_reads.bind fun _ => require_reads.bind fun _ => (elements_read small elementType limits _ count).bind fun hashed => .pure ?_
  rintro _ _ _ - ⟨elements, rfl, valid, rfl, rfl⟩ _ _ - ⟨rfl, -⟩ _ _ - ⟨rfl, -⟩ _ _ - ⟨rfl, fits⟩ _ _ - ⟨rfl, plain, known⟩ _ _ - ⟨rfl, -⟩
  refine ⟨elementType, elements, ⟨plain, known, fits, valid⟩, ?_, ?_⟩ <;> simp [MetadataValue.bytes]

theorem parseMetadataValue_reads (valueType : Nat) (limits : GgufLimits) (total : Nat) :
    Reads (discipline blob declared) (parseMetadataValue valueType limits total) fun _ parsed items => valueType < 2 ^ 32 →
      ∃ value : MetadataValue, value.Valid ∧ value.valueType = valueType ∧ littleEndian 4 valueType ++ items = value.bytes ∧
        parsed.2 = value.parsed := by
  unfold parseMetadataValue
  split
  next isArray =>
    subst isArray
    refine (parseArray_reads small limits total _).bind fun _ => .pure ?_
    rintro _ _ items - ⟨elementType, elements, valid, written, hashed⟩ -
    rw [append_nil]
    refine ⟨.array elementType elements, valid, rfl, written, ?_⟩
    simp only [hashed, MetadataValue.parsed, MetadataValue.digest, ← written, append_assoc]
    rfl
  next isScalar =>
    refine (parseScalar_reads small valueType limits _).bind fun _ => .pure ?_
    rintro _ _ _ - ⟨payload, valid, rfl, rfl⟩ word
    refine ⟨.scalar valueType payload, ⟨word, valid⟩, rfl, by simp [MetadataValue.bytes], ?_⟩
    simp [MetadataValue.parsed, MetadataValue.digest, MetadataValue.bytes]

/-- So many entries have been read. -/
def EntriesRead (limits : GgufLimits) (count _offset : Nat) (state : MetadataState) (items : Bytes) : Prop :=
  ∃ entries, entries.length = count ∧ items = entries.flatMap entryBytes ∧ Noted limits entries state

theorem parseEntry_reads (limits : GgufLimits) (state : MetadataState) :
    Reads (discipline blob declared) (parseEntry limits state) fun _ next items => ∃ entry, items = entryBytes entry ∧
      ∀ entries, Noted limits entries state → Noted limits (entries ++ [entry]) next := by
  refine (readUtf8_reads small limits.nameBytes).bind fun key => require_reads.bind fun _ => (readU32_reads small).bind fun valueType =>
    require_reads.bind fun _ => (parseMetadataValue_reads small valueType limits state.arrayElements).bind fun ⟨arrayElements, parsed⟩ =>
    (noteAlignment_reads key parsed state.alignment).bind fun alignment =>
    (noteArchitecture_reads key parsed state.architecture).bind fun architecture =>
    (notePrompt_reads key parsed state.prompt).bind fun prompt => require_reads.bind fun _ =>
    (enforcePosition_reads limits.tableBytes).bind fun _ => .pure ?_
  rintro _ _ _ - ⟨rfl, -⟩ _ _ - ⟨rfl, absent⟩ _ _ - ⟨rfl, notesPrompt⟩ _ _ - ⟨rfl, notesArchitecture⟩ _ _ - ⟨rfl, notesAlignment⟩
    _ items - parses _ _ - ⟨rfl, template⟩ _ _ - ⟨rfl, word⟩ _ _ - ⟨rfl, valid⟩ _ _ - ⟨rfl, short, fits⟩
  obtain ⟨value, validValue, typed, written, rfl⟩ := parses word
  refine ⟨(key, value), by simp [entryBytes, ← written], fun entries noted => ?_⟩
  have fresh : key ∉ entries.map Prod.fst := by
    intro listed
    obtain ⟨⟨_, other⟩, member, rfl⟩ := mem_map.mp listed
    have row := mem_map_of_mem (f := fun entry : Text × MetadataValue => (entry.1, entry.2.digest)) member
    rw [← noted.values, Table.mem_rows_iff, absent] at row
    cases row
  exact {
    valid := forall_mem_append.mpr ⟨noted.valid, forall_mem_singleton.mpr
      ⟨valid, short, fits, validValue, fun same => by_contra fun other => template ⟨same, typed ▸ other⟩⟩⟩
    distinct := by
      rw [map_append]
      exact nodup_append_comm.mp (nodup_cons.mpr ⟨fresh, noted.distinct⟩)
    values := by
      rw [Table.rows_upsert_of_find_eq_none absent, noted.values]
      simp [MetadataValue.parsed]
    alignment := noted.alignment.snoc fresh notesAlignment
    architecture := noted.architecture.snoc fresh notesArchitecture
    prompt := noted.prompt.snoc fresh notesPrompt }

/-- What parsing the metadata table yields. -/
structure MetadataParsed (limits : GgufLimits) (entries : List (Text × MetadataValue)) (parsed : ParsedMetadata) (state : MetadataState)
    (architecture : Text) : Prop where
  noted : Noted limits entries state
  named : state.architecture = some architecture
  prompt : state.prompt = some parsed.prompt
  configuration : selectConfiguration state.values architecture = .ok parsed.configuration
  tokenizer : parsed.tokenizer = selectTokenizer state.values
  alignment : parsed.alignment = state.alignment

omit small in
theorem selectConfiguration_error {values : Table Text Digest} {architecture : Text} {fault : Stop}
    (failed : selectConfiguration values architecture = .error fault) : fault ≠ .wrapped := by
  have required : ∀ keys configuration, selectRequired values keys configuration = .error fault → fault ≠ .wrapped := by
    intro keys
    induction keys with
    | nil => nofun
    | cons key keys ih =>
      intro configuration failed
      unfold selectRequired at failed
      split at failed
      · cases failed
        nofun
      · exact ih _ failed
  cases chosen : selectRequired values requiredKeys .empty with
  | error other =>
    simp only [selectConfiguration, chosen] at failed
    cases failed
    exact required _ _ chosen
  | ok configuration =>
    simp only [selectConfiguration, chosen] at failed
    cases failed

theorem parseMetadata_reads (count : Nat) (limits : GgufLimits) :
    Reads (discipline blob declared) (parseMetadata count limits) fun _ parsed items => ∃ entries state architecture,
      entries.length = count ∧ items = entries.flatMap entryBytes ∧ MetadataParsed limits entries parsed state architecture := by
  have loop : Reads (discipline blob declared) (Parser.repeatM (parseEntry limits) count .new) (EntriesRead limits count) := by
    refine .repeatM (EntriesRead limits) count (fun _ => ⟨[], rfl, rfl, ?_⟩) fun index state _ => (parseEntry_reads small limits state).mono ?_
    · exact ⟨by simp, by simp, rfl, ⟨by simp, fun _ => rfl⟩, ⟨by simp, fun _ => rfl⟩, ⟨by simp, fun _ => rfl⟩⟩
    · rintro _ next _ ⟨entry, rfl, notes⟩ _ _ - ⟨entries, size, rfl, noted⟩
      exact ⟨entries ++ [entry], by simp [size], by simp, notes entries noted⟩
  refine loop.bind fun state => (expected_reads _).bind fun architecture => (expected_reads _).bind fun prompt =>
    (Reads.lift fun _ => selectConfiguration_error).bind fun configuration => .pure ?_
  rintro _ _ _ - ⟨rfl, selected⟩ _ _ - ⟨rfl, prompts⟩ _ _ - ⟨rfl, named⟩ _ _ - ⟨entries, size, rfl, noted⟩
  exact ⟨entries, state, architecture, size, by simp, noted, named, prompts, selected, rfl, rfl⟩

def DimensionsRead (count _offset product : Nat) (items : Bytes) : Prop :=
  ∃ dimensions : List Nat, dimensions.length = count ∧ items = dimensions.flatMap (littleEndian 8) ∧
    product = dimensions.foldl (· * ·) 1 ∧ (∀ dimension ∈ dimensions, dimension < 2 ^ 64) ∧
      (dimensions ≠ [] → product < 2 ^ 64 ∧ product ≠ 0)

theorem dimensions_read (count : Nat) : Reads (discipline blob declared) (Parser.repeatM parseDimension count 1) (DimensionsRead count) := by
  refine .repeatM DimensionsRead count (fun _ => ⟨[], rfl, rfl, rfl, by simp, by simp⟩) fun index product _ => ?_
  refine (readU64_reads small).bind fun dimension => require_reads.bind fun _ => .pure ?_
  rintro _ _ _ - ⟨rfl, fits, positive⟩ _ _ - ⟨rfl, word⟩ _ _ - ⟨dimensions, size, rfl, rfl, words, -⟩
  exact ⟨dimensions ++ [dimension], by simp [size], by simp, by simp, forall_mem_append.mpr ⟨words, forall_mem_singleton.mpr word⟩,
    fun _ => ⟨fits, positive⟩⟩

/-- So many tensors have been read, and the table with them stays within its limit. -/
def TensorsRead (limits : GgufLimits) (count offset : Nat) (state : TensorState) (items : Bytes) : Prop :=
  ∃ tensors : List TensorEntry, tensors.length = count ∧ items = tensors.flatMap TensorEntry.bytes ∧
    (∀ tensor ∈ tensors, ValidTensor limits tensor) ∧ (tensors.map TensorEntry.name).Nodup ∧
      state = ⟨tensors.map TensorEntry.name, tensors.map TensorEntry.offset⟩ ∧
        (tensors ≠ [] → offset + items.length ≤ limits.tableBytes)

theorem parseTensor_reads (limits : GgufLimits) (state : TensorState) :
    Reads (discipline blob declared) (parseTensor limits state) fun offset next items => ∃ tensor, items = tensor.bytes ∧
      ValidTensor limits tensor ∧ tensor.name ∉ state.names ∧ next = ⟨state.names ++ [tensor.name], state.offsets ++ [tensor.offset]⟩ ∧
        offset + items.length ≤ limits.tableBytes := by
  refine (readUtf8_reads small limits.nameBytes).bind fun name => require_reads.bind fun _ => (readU32_reads small).bind fun dimensions =>
    require_reads.bind fun _ => (dimensions_read small dimensions).bind fun product => (readU32_reads small).bind fun tensorType =>
    require_reads.bind fun _ => (readU64_reads small).bind fun offset => (enforcePosition_reads limits.tableBytes).bind fun _ => .pure ?_
  rintro _ _ _ - ⟨rfl, limit⟩ _ _ here ⟨rfl, word⟩ _ _ sixth ⟨rfl, supported⟩ _ _ fifth ⟨rfl, -⟩
    _ _ fourth ⟨dimensions, rfl, rfl, rfl, words, elements⟩ _ _ third ⟨rfl, few⟩ _ _ second ⟨rfl, -⟩ _ _ first ⟨rfl, named, fresh⟩
    start _ begins ⟨rfl, short, -⟩
  have some : dimensions ≠ [] := by
    rintro rfl
    simp at few
  refine ⟨⟨name, dimensions, tensorType, offset⟩, by simp [TensorEntry.bytes], ⟨named, short, few, words, elements some, supported, word⟩,
    fresh, rfl, ?_⟩
  simp only [length_append, length_nil, Nat.add_zero] at *
  omega

theorem parseTensors_reads (count : Nat) (limits : GgufLimits) :
    Reads (discipline blob declared) (parseTensors count limits) fun offset offsets items => ∃ tensors : List TensorEntry,
      tensors.length = count ∧ items = tensors.flatMap TensorEntry.bytes ∧ (∀ tensor ∈ tensors, ValidTensor limits tensor) ∧
        (tensors.map TensorEntry.name).Nodup ∧ offsets = tensors.map TensorEntry.offset ∧
          (tensors ≠ [] → offset + items.length ≤ limits.tableBytes) := by
  have loop : Reads (discipline blob declared) (Parser.repeatM (parseTensor limits) count ⟨[], []⟩) (TensorsRead limits count) := by
    refine .repeatM (TensorsRead limits) count (fun _ => ⟨[], rfl, rfl, by simp, by simp, rfl, by simp⟩) fun index state _ =>
      (parseTensor_reads small limits state).mono ?_
    rintro _ next _ ⟨tensor, rfl, valid, fresh, rfl, limit⟩ first _ rfl ⟨tensors, size, rfl, validBefore, distinct, rfl, -⟩
    refine ⟨tensors ++ [tensor], by simp [size], by simp, forall_mem_append.mpr ⟨validBefore, forall_mem_singleton.mpr valid⟩, ?_, by simp,
      fun _ => by simp only [length_append] at *; omega⟩
    rw [map_append]
    exact nodup_append_comm.mp (nodup_cons.mpr ⟨fresh, distinct⟩)
  refine require_reads.bind fun _ => loop.bind fun state => .pure ?_
  rintro _ _ _ there ⟨tensors, size, rfl, valid, distinct, rfl, limit⟩ _ _ here ⟨rfl, -⟩
  refine ⟨tensors, size, by simp, valid, distinct, rfl, fun some => ?_⟩
  have bounded := limit some
  simp only [length_nil, Nat.add_zero, append_nil, nil_append] at *
  omega

theorem parsePadding_reads {alignment : Nat} (positive : 1 ≤ alignment) (power : isPowerOfTwo alignment = true) :
    Reads (discipline blob declared) (parsePadding declared alignment) fun offset dataBytes items => ∃ padding,
      items = List.replicate padding 0 ∧ padding < alignment ∧ alignment ∣ offset + padding ∧ offset + padding + dataBytes = declared := by
  refine getPosition_reads.bind fun tableEnd => (alignUp_reads tableEnd positive power).bind_of ?_
  rintro dataStart ⟨_, _, -, -, above, -⟩
  refine require_reads.bind_of ?_
  rintro _ ⟨_, _, -, inside⟩
  refine (subtract_reads above).bind fun padding => (readVector_reads small padding).bind fun bytes => require_reads.bind fun _ =>
    (subtract_reads inside).mono ?_
  rintro _ dataBytes _ ⟨rfl, left⟩ _ _ - ⟨rfl, zero⟩ _ _ - ⟨rfl, rfl⟩ _ _ - ⟨rfl, length⟩ _ _ - ⟨rfl, -⟩ _ _ - ⟨rfl, divides, -, near⟩
    offset _ - ⟨rfl, rfl⟩
  refine ⟨_, eq_replicate_iff.mpr ⟨rfl, ?_⟩, ?_⟩
  · intro byte member
    simp only [nil_append, append_nil] at member
    exact eq_of_beq (all_eq_true.mp zero byte member)
  · simp only [nil_append, append_nil, Nat.add_comm tableEnd, length]
    exact ⟨by omega, divides, by omega⟩

end

/-- A file as its fields. -/
structure File where
  entries : List (Text × MetadataValue)
  tensors : List TensorEntry
  padding : Nat
  data : Bytes

namespace File

/-- The header and the two tables. -/
def tables (file : File) : Bytes :=
  ggufMagic ++ (littleEndian 4 ggufVersion ++ (littleEndian 8 file.tensors.length ++ (littleEndian 8 file.entries.length ++
    (file.entries.flatMap entryBytes ++ file.tensors.flatMap TensorEntry.bytes))))

def bytes (file : File) : Bytes := file.tables ++ (List.replicate file.padding 0 ++ file.data)

end File

/-- A file that the inspection may accept. -/
structure WellFormed (limits : GgufLimits) (alignment : Nat) (file : File) : Prop where
  entries : ∀ entry ∈ file.entries, ValidEntry limits entry
  keys : (file.entries.map Prod.fst).Nodup
  tensors : ∀ tensor ∈ file.tensors, ValidTensor limits tensor
  names : (file.tensors.map TensorEntry.name).Nodup
  stated : Tracks file.entries alignmentKey defaultAlignment givesAlignment alignment
  power : 1 ≤ alignment ∧ alignment ≤ 4096 ∧ isPowerOfTwo alignment = true
  increasing : (file.tensors.map TensorEntry.offset).Pairwise (· < ·)
  aligned : ∀ tensor ∈ file.tensors, alignment ∣ tensor.offset
  inside : ∀ tensor ∈ file.tensors, tensor.offset < file.data.length
  table : file.tables.length ≤ limits.tableBytes
  padding : file.padding < alignment ∧ alignment ∣ file.tables.length + file.padding

theorem pairwise_of_windows {offsets : List Nat} (ordered : ((windows offsets).any fun pair => decide (pair.2 ≤ pair.1)) = false) :
    offsets.Pairwise (· < ·) := by
  rw [← isChain_iff_pairwise]
  induction offsets with
  | nil => exact .nil
  | cons first rest ih =>
    cases rest with
    | nil => exact .singleton _
    | cons second rest =>
      simp only [windows, any_cons, Bool.or_eq_false_iff, decide_eq_false_iff_not, Nat.not_le] at ordered
      exact .cons_cons ordered.1 (ih ordered.2)

theorem checkData_eq_true {alignment dataBytes : Nat} {offsets : List Nat} (checked : checkData alignment dataBytes offsets = true) :
    offsets.Pairwise (· < ·) ∧ ∀ offset ∈ offsets, offset < dataBytes ∧ alignment ∣ offset := by
  simp only [checkData, Bool.not_eq_true', Bool.or_eq_false_iff] at checked
  obtain ⟨⟨-, ordered⟩, each⟩ := checked
  refine ⟨pairwise_of_windows ordered, fun offset member => ?_⟩
  have kept := any_eq_false.mp each offset member
  simp only [Bool.or_eq_true, decide_eq_true_eq, bne_iff_ne, not_or, Nat.not_le, not_not] at kept
  exact ⟨kept.1, Nat.dvd_of_mod_eq_zero kept.2⟩

/-- What the inspection answers with for a file. -/
structure Inspected (blob : Bytes) (declared : Nat) (limits : GgufLimits) (file : File) (parsed : ParsedMetadata) (state : MetadataState)
    (architecture : Text) (observation : GgufObservation) : Prop where
  wellFormed : WellFormed limits parsed.alignment file
  metadata : MetadataParsed limits file.entries parsed state architecture
  observed : observation = ⟨Digest.sha256 blob, declared, file.entries.length, file.tensors.length,
    componentDigest "model-load-configuration".toList parsed.configuration,
    componentDigest "tokenizer-without-chat-template".toList parsed.tokenizer, parsed.prompt⟩

theorem inspectBlob_reads {blob : Bytes} {declared : Nat} (small : declared < 2 ^ 64) (limits : GgufLimits) :
    Reads (discipline blob declared) (inspectBlob declared limits) fun offset observation items => offset = 0 → items.length ≤ declared →
      ∃ file parsed state architecture, items = file.bytes ∧ items.length = declared ∧ items.length = blob.length ∧
        Inspected blob declared limits file parsed state architecture observation := by
  refine (readExact_reads small 4).bind fun magic => require_reads.bind fun _ => (readU32_reads small).bind fun version =>
    require_reads.bind fun _ => (readU64_reads small).bind fun tensorCount => (readU64_reads small).bind fun metadataCount =>
    require_reads.bind fun _ => (parseMetadata_reads small metadataCount limits).bind fun parsed => require_reads.bind fun _ =>
    require_reads.bind_of ?_
  rintro _ ⟨_, _, -, positive, bounded, power⟩
  refine (parseTensors_reads small tensorCount limits).bind fun offsets => (parsePadding_reads small positive power).bind fun dataBytes =>
    require_reads.bind fun _ => (finish_reads small).bind fun digest => .pure ?_
  rintro _ _ data whole ⟨enough, exact, rfl⟩ _ _ checking ⟨rfl, checked⟩ tableEnd _ pads ⟨padding, rfl, near, divides, room⟩
    _ _ tables ⟨tensors, rfl, rfl, validTensors, names, rfl, limit⟩ _ _ sixth ⟨rfl, -⟩ _ _ fifth ⟨rfl, -⟩
    _ _ fourth ⟨entries, state, architecture, rfl, rfl, metadata⟩ _ _ third ⟨rfl, counted, -⟩ _ _ second ⟨rfl, -⟩ _ _ first ⟨rfl, -⟩
    _ _ begins ⟨rfl, rfl⟩ _ _ versions ⟨rfl, -⟩ _ _ magics ⟨rfl, rfl⟩ start _ starts ⟨rfl, -⟩ rfl short
  obtain ⟨increasing, each⟩ := checkData_eq_true checked
  have some : tensors ≠ [] := by
    rintro rfl
    exact counted rfl
  have table := limit some
  let file : File := ⟨entries, tensors, padding, data⟩
  have tablesLength : file.tables.length = ggufMagic.length + (littleEndian 4 ggufVersion).length + (littleEndian 8 tensors.length).length +
      (littleEndian 8 entries.length).length + (entries.flatMap entryBytes).length + (tensors.flatMap TensorEntry.bytes).length := by
    simp only [file, File.tables, length_append]
    omega
  simp only [length_append, length_nil, length_replicate, Nat.add_zero, Nat.zero_add, append_nil, nil_append] at *
  have dataLength : data.length = dataBytes := by omega
  have ends : file.tables.length = tableEnd := by omega
  have stated := metadata.noted.alignment
  rw [← metadata.alignment] at stated
  have members : ∀ tensor ∈ tensors, tensor.offset < dataBytes ∧ parsed.alignment ∣ tensor.offset :=
    fun tensor member => each tensor.offset (mem_map_of_mem member)
  refine ⟨file, parsed, state, architecture, ?_, by omega, by omega, ⟨?_, metadata, rfl⟩⟩
  · simp [file, File.bytes, File.tables]
  · exact ⟨metadata.noted.valid, metadata.noted.distinct, validTensors, names, stated, ⟨positive, bounded, power⟩, increasing,
      fun tensor member => (members tensor member).2, fun tensor member => dataLength ▸ (members tensor member).1, by omega, near,
      ends ▸ divides⟩

/-- The whole stream has been read, byte for byte. -/
structure ReadWhole (reader : Reader) (declared : Nat) (final : ExactReader) : Prop where
  size : reader.bytes.length = declared
  position : final.position = declared
  hashed : final.hasher = reader.bytes
  left : final.inner.bytes = []

theorem inspectGgufV3_reads (reader : Reader) (expectedDigest : Digest) (declared : Nat) (limits : GgufLimits) (cancelled : Cancellation) :
    (inspectGgufV3 reader expectedDigest declared limits cancelled).1 ≠ .error .wrapped ∧
      ReaderInv reader.bytes declared (inspectGgufV3 reader expectedDigest declared limits cancelled).2 ∧
      ∀ observation, (inspectGgufV3 reader expectedDigest declared limits cancelled).1 = .ok observation →
        ReadWhole reader declared (inspectGgufV3 reader expectedDigest declared limits cancelled).2 ∧
        ∃ file parsed state architecture, reader.bytes = file.bytes ∧
          Inspected reader.bytes declared limits file parsed state architecture observation := by
  have initial : ReaderInv reader.bytes declared (ExactReader.new reader declared cancelled) := ⟨Nat.zero_add _, rfl, rfl, nofun⟩
  unfold inspectGgufV3
  dsimp only
  split
  · exact ⟨nofun, initial, nofun⟩
  next allowed =>
    have small : declared < 2 ^ 64 := by
      simp only [not_or, Nat.not_lt, maxGgufBytes] at allowed
      omega
    have whole : Reads (discipline reader.bytes declared) (do
        let observation ← inspectBlob declared limits
        Parser.require (observation.byteDigest = expectedDigest) (.error .blobDigestMismatch)
        pure observation) fun offset observation items => offset = 0 → items.length ≤ declared →
        ∃ file parsed state architecture, items = file.bytes ∧ items.length = declared ∧ items.length = reader.bytes.length ∧
          Inspected reader.bytes declared limits file parsed state architecture observation := by
      refine (inspectBlob_reads small limits).bind fun observation => require_reads.bind fun _ => .pure ?_
      rintro _ _ _ - ⟨rfl, -⟩ _ items - holds
      simpa using holds
    have inv := whole.keeps _ initial
    refine ⟨fun wrapped => whole.fails _ initial _ wrapped rfl, inv, fun observation accepted => ?_⟩
    obtain ⟨items, consumed, holds⟩ := whole.reads _ initial observation accepted
    generalize Parser.start _ _ = run at inv consumed accepted ⊢
    have hashed : run.2.hasher = items := consumed
    have position : items.length = run.2.position := hashed ▸ inv.hashed
    have total := inv.total
    obtain ⟨file, parsed, state, architecture, written, size, full, inspected⟩ := holds rfl (by omega)
    have stream := inv.stream
    have left : run.2.inner.bytes = [] := by
      have lengths := congrArg List.length stream
      rw [length_append, hashed] at lengths
      exact eq_nil_of_length_eq_zero (by omega)
    rw [hashed, left, append_nil] at stream
    exact ⟨⟨by omega, by omega, hashed.trans stream, left⟩, file, parsed, state, architecture, stream ▸ written, inspected⟩

/-- Whatever a stream holds and whatever its caller declares, allows and interrupts: position and remaining bytes add up to the declared
size after every read and nothing wraps; and an accepted stream is, whole and to its last byte, a well-formed file within the limits. -/
theorem inspection_is_sound (reader : Reader) (expectedDigest : Digest) (declared : Nat) (limits : GgufLimits) (cancelled : Cancellation) :
    (inspectGgufV3 reader expectedDigest declared limits cancelled).1 ≠ .error .wrapped ∧
      ((inspectGgufV3 reader expectedDigest declared limits cancelled).2.position +
          (inspectGgufV3 reader expectedDigest declared limits cancelled).2.remaining = declared ∧
        ∀ mark ∈ (inspectGgufV3 reader expectedDigest declared limits cancelled).2.trace, mark.position + mark.remaining = declared) ∧
      ∀ observation, (inspectGgufV3 reader expectedDigest declared limits cancelled).1 = .ok observation →
        ReadWhole reader declared (inspectGgufV3 reader expectedDigest declared limits cancelled).2 ∧
        ∃ file alignment, reader.bytes = file.bytes ∧ WellFormed limits alignment file := by
  obtain ⟨unwrapped, inv, accepts⟩ := inspectGgufV3_reads reader expectedDigest declared limits cancelled
  refine ⟨unwrapped, ⟨inv.total, inv.trace⟩, fun observation accepted => ?_⟩
  obtain ⟨whole, file, parsed, state, architecture, written, inspected⟩ := accepts observation accepted
  exact ⟨whole, file, parsed.alignment, written, inspected.wellFormed⟩

end Retonr.Gguf
