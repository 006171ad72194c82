import Retonr.Lib.Parser
import Retonr.Lib.Table
import Retonr.Types.Document

/-! Inspection of a GGUF v3 blob: one pass over the stream checks the metadata and tensor tables
and hashes every byte, and component identities are digests over selected metadata. The stream may
fail and the caller may cancel at any call. Arithmetic the source leaves unchecked stops the run as
`wrapped` where a machine word would not hold the result. -/

namespace Retonr.Gguf
open Text Framing

def ggufMagic : Bytes := encode "GGUF".toList

def ggufVersion : Nat := 3

def defaultAlignment : Nat := 32

def maxGgufBytes : Nat := 128 * 1024 * 1024 * 1024

inductive ReconstructionError where
  | cancelled
  | inputRead
  | blobSizeMismatch
  | blobDigestMismatch
  | invalidGguf
  | unsupportedGguf
  | limitExceeded
  | invalidUtf8
  | duplicateName

inductive Stop where
  | error (error : ReconstructionError)
  | wrapped

structure GgufLimits where
  (metadataEntries tensors nameBytes stringBytes arrayElements totalArrayElements tableBytes : Nat)

namespace GgufLimits

def default : GgufLimits where
  metadataEntries := 65536
  tensors := 1000000
  nameBytes := 512
  stringBytes := 16 * 1024 * 1024
  arrayElements := 10000000
  totalArrayElements := 50000000
  tableBytes := 1024 * 1024 * 1024

def withinHardLimits (limits : GgufLimits) : Bool :=
  limits.metadataEntries != 0 && limits.metadataEntries ≤ default.metadataEntries &&
    limits.tensors != 0 && limits.tensors ≤ default.tensors &&
    limits.nameBytes != 0 && limits.nameBytes ≤ default.nameBytes &&
    limits.stringBytes != 0 && limits.stringBytes ≤ default.stringBytes &&
    limits.arrayElements != 0 && limits.arrayElements ≤ default.arrayElements &&
    limits.totalArrayElements != 0 && limits.totalArrayElements ≤ default.totalArrayElements &&
    limits.tableBytes != 0 && limits.tableBytes ≤ default.tableBytes

end GgufLimits

/-- A caller's stream: what it has left, and which of its calls fail. -/
structure Reader where
  bytes : Bytes
  calls : Nat
  fails : Nat → Bool

namespace Reader

def called (reader : Reader) : Reader := { reader with calls := reader.calls + 1 }

def readExact (reader : Reader) (length : Nat) : Except ReconstructionError Bytes × Reader :=
  if reader.fails reader.calls then (.error .inputRead, reader.called)
  else if reader.bytes.length < length then (.error .blobSizeMismatch, reader.called)
  else (.ok (reader.bytes.take length), { reader.called with bytes := reader.bytes.drop length })

/-- Looks for one more byte after the end. -/
def readTrailing (reader : Reader) : Except ReconstructionError Unit × Reader :=
  if reader.fails reader.calls then (.error .inputRead, reader.called)
  else if reader.bytes.isEmpty then (.ok (), reader.called)
  else (.error .blobSizeMismatch, reader.called)

end Reader

/-- A caller's answers to whether it has cancelled. -/
structure Cancellation where
  polls : Nat
  requested : Nat → Bool

structure Mark where
  (position remaining : Nat)

structure ExactReader where
  inner : Reader
  (remaining position : Nat)
  hasher : Bytes
  cancelled : Cancellation
  /-- Where every read has led, for statements about whole runs. -/
  trace : List Mark

abbrev Parse := Parser ExactReader Stop

namespace ExactReader

def new (inner : Reader) (size : Nat) (cancelled : Cancellation) : ExactReader := ⟨inner, size, 0, [], cancelled, []⟩

def polled (reader : ExactReader) : ExactReader :=
  { reader with cancelled := { reader.cancelled with polls := reader.cancelled.polls + 1 } }

/-- Asks the caller whether it has cancelled. -/
def poll : Parse Unit := ExceptT.mk fun reader =>
  (if reader.cancelled.requested reader.cancelled.polls then .error (.error .cancelled) else .ok (), reader.polled)

def getPosition : Parse Nat := ExceptT.mk fun reader => (.ok reader.position, reader)

def getRemaining : Parse Nat := ExceptT.mk fun reader => (.ok reader.remaining, reader)

def byteDigest : Parse Digest := ExceptT.mk fun reader => (.ok (Digest.sha256 reader.hasher), reader)

def readInner (length : Nat) : Parse Bytes := ExceptT.mk fun reader =>
  match reader.inner.readExact length with
  | (.error fault, inner) => (.error (.error fault), { reader with inner })
  | (.ok output, inner) =>
      if length ≤ reader.remaining ∧ reader.position + length < 2 ^ 64 then
        let mark : Mark := ⟨reader.position + length, reader.remaining - length⟩
        (.ok output, { reader with
          inner
          hasher := reader.hasher ++ output
          remaining := mark.remaining
          position := mark.position
          trace := mark :: reader.trace })
      else (.error .wrapped, { reader with inner, hasher := reader.hasher ++ output })

def readExact (length : Nat) : Parse Bytes := do
  poll
  let remaining ← getRemaining
  Parser.require (length ≤ remaining) (.error .blobSizeMismatch)
  readInner length

def readU32 : Parse Nat := do
  let bytes ← readExact 4
  pure (littleEndianNat bytes)

def readU64 : Parse Nat := do
  let bytes ← readExact 8
  pure (littleEndianNat bytes)

def readVector (length : Nat) : Parse Bytes := do
  Parser.require (length < usizeLimit) (.error .limitExceeded)
  readExact length

def fromUtf8 (bytes : Bytes) : Parse Text :=
  match decode bytes with
  | .ok text => pure text
  | .error _ => throw (.error .invalidUtf8)

def readUtf8 (maximum : Nat) : Parse Text := do
  let length ← readU64
  Parser.require (length ≤ maximum) (.error .limitExceeded)
  let bytes ← readVector length
  fromUtf8 bytes

def enforcePosition (maximum : Nat) : Parse Unit := do
  let position ← getPosition
  Parser.require (position ≤ maximum) (.error .limitExceeded)

/-- The loop that hashes the rest. A round reads at least one byte, so there are no more rounds than
bytes. -/
def readRest : Nat → Parse Unit
  | 0 => pure ()
  | rounds + 1 => do
      let remaining ← getRemaining
      if remaining = 0 then pure ()
      else do
        let _ ← readExact (min remaining (64 * 1024))
        readRest rounds

def readTrailing : Parse Unit := ExceptT.mk fun reader =>
  let (found, inner) := reader.inner.readTrailing
  (found.mapError .error, { reader with inner })

def finish : Parse Digest := do
  let remaining ← getRemaining
  readRest remaining
  poll
  readTrailing
  byteDigest

end ExactReader

open ExactReader

structure ParsedValue where
  digest : Digest
  u32Value : Option Nat
  stringValue : Option Bytes

def valueDomain : Bytes := encode "retonr:gguf-metadata-value:v1\x00".toList

/-- A scalar, with what has been hashed of the value so far. -/
def parseScalar (valueType : Nat) (limits : GgufLimits) (hasher : Bytes) : Parse (Bytes × Option Nat × Option Bytes) :=
  match valueType with
  | 0 | 1 => do
      let bytes ← readExact 1
      pure (hasher ++ bytes, none, none)
  | 2 | 3 => do
      let bytes ← readExact 2
      pure (hasher ++ bytes, none, none)
  | 4 => do
      let bytes ← readExact 4
      pure (hasher ++ bytes, some (littleEndianNat bytes), none)
  | 5 | 6 => do
      let bytes ← readExact 4
      pure (hasher ++ bytes, none, none)
  | 7 => do
      let bytes ← readExact 1
      Parser.require (littleEndianNat bytes ≤ 1) (.error .invalidGguf)
      pure (hasher ++ bytes, none, none)
  | 8 => do
      let length ← readU64
      Parser.require (length ≤ limits.stringBytes) (.error .limitExceeded)
      let bytes ← readVector length
      let _ ← fromUtf8 bytes
      pure (hasher ++ littleEndian 8 length ++ bytes, none, some bytes)
  | 10 | 11 | 12 => do
      let bytes ← readExact 8
      pure (hasher ++ bytes, none, none)
  | _ => throw (.error .unsupportedGguf)

def parseArray (limits : GgufLimits) (totalArrayElements : Nat) (hasher : Bytes) : Parse (Nat × Bytes) := do
  let elementType ← readU32
  Parser.require (elementType ≠ 9 ∧ elementType ≤ 12) (.error .unsupportedGguf)
  let count ← readU64
  Parser.require (count ≤ limits.arrayElements) (.error .limitExceeded)
  Parser.require (totalArrayElements + count < 2 ^ 64 ∧ totalArrayElements + count ≤ limits.totalArrayElements) (.error .limitExceeded)
  let hasher := hasher ++ littleEndian 4 elementType ++ littleEndian 8 count
  let hashed ← Parser.repeatM (fun hasher => do
    let (hashed, _) ← parseScalar elementType limits hasher
    pure hashed) count hasher
  pure (totalArrayElements + count, hashed)

def parseMetadataValue (valueType : Nat) (limits : GgufLimits) (totalArrayElements : Nat) : Parse (Nat × ParsedValue) := do
  let hasher := valueDomain ++ littleEndian 4 valueType
  if valueType = 9 then do
    let (total, hashed) ← parseArray limits totalArrayElements hasher
    pure (total, ⟨Digest.sha256 hashed, none, none⟩)
  else do
    let (hashed, u32Value, stringValue) ← parseScalar valueType limits hasher
    pure (totalArrayElements, ⟨Digest.sha256 hashed, u32Value, stringValue⟩)

def u32ValueDigest (value : Nat) : Digest := Digest.sha256 (valueDomain ++ littleEndian 4 4 ++ littleEndian 4 value)

def validMetadataKey (value : Text) : Bool :=
  !value.isEmpty && value.all fun char => char.isAlphanum || char == '.' || char == '_' || char == '-'

def validArchitecture (value : Text) : Bool :=
  !value.isEmpty && value.byteLen ≤ 128 && value.all fun char => char.isLower || char.isDigit || char == '_' || char == '-'

def chatTemplateKey : Text := "tokenizer.chat_template".toList

def alignmentKey : Text := "general.alignment".toList

def architectureKey : Text := "general.architecture".toList

/-- What the loop over the metadata entries keeps. -/
structure MetadataState where
  values : Table Text Digest
  architecture : Option Text
  prompt : Option Digest
  (alignment arrayElements : Nat)

def MetadataState.new : MetadataState := ⟨.empty, none, none, defaultAlignment, 0⟩

/-- The value's part that a special key must have. -/
def expected {α : Type} (part : Option α) : Parse α :=
  match part with
  | some value => pure value
  | none => throw (.error .unsupportedGguf)

def noteAlignment (key : Text) (parsed : ParsedValue) (alignment : Nat) : Parse Nat :=
  if key = alignmentKey then expected parsed.u32Value else pure alignment

def noteArchitecture (key : Text) (parsed : ParsedValue) (architecture : Option Text) : Parse (Option Text) :=
  if key = architectureKey then do
    let bytes ← expected parsed.stringValue
    let value ← fromUtf8 bytes
    Parser.require (validArchitecture value = true) (.error .unsupportedGguf)
    pure (some value)
  else pure architecture

def notePrompt (key : Text) (parsed : ParsedValue) (prompt : Option Digest) : Parse (Option Digest) :=
  if key = chatTemplateKey then do
    let bytes ← expected parsed.stringValue
    pure (some (Digest.sha256 bytes))
  else pure prompt

def parseEntry (limits : GgufLimits) (state : MetadataState) : Parse MetadataState := do
  let key ← readUtf8 limits.nameBytes
  Parser.require (validMetadataKey key = true) (.error .invalidGguf)
  let valueType ← readU32
  Parser.require (¬(key = chatTemplateKey ∧ valueType ≠ 8)) (.error .unsupportedGguf)
  let (arrayElements, parsed) ← parseMetadataValue valueType limits state.arrayElements
  let alignment ← noteAlignment key parsed state.alignment
  let architecture ← noteArchitecture key parsed state.architecture
  let prompt ← notePrompt key parsed state.prompt
  Parser.require (state.values.find key = none) (.error .duplicateName)
  enforcePosition limits.tableBytes
  pure ⟨state.values.upsert key parsed.digest, architecture, prompt, alignment, arrayElements⟩

structure ParsedMetadata where
  (configuration tokenizer : Table Text Digest)
  prompt : Digest
  alignment : Nat

def requiredKeys : List Text :=
  ["general.architecture".toList, "general.file_type".toList, "general.quantization_version".toList, "general.parameter_count".toList]

/-- The rows in the order of the encoded keys. -/
def sortedRows (values : Table Text Digest) : List (Text × Digest) :=
  values.rows.insertionSort fun left right => encode left.1 ≤ encode right.1

def selectRequired (values : Table Text Digest) : List Text → Table Text Digest → Except Stop (Table Text Digest)
  | [], configuration => .ok configuration
  | key :: keys, configuration =>
      match values.find key with
      | none => .error (.error .unsupportedGguf)
      | some digest => selectRequired values keys (configuration.upsert key digest)

def selectConfiguration (values : Table Text Digest) (architecture : Text) : Except Stop (Table Text Digest) := do
  let configuration ← selectRequired values requiredKeys .empty
  let alignmentDigest := (values.find alignmentKey).getD (u32ValueDigest defaultAlignment)
  let configuration := configuration.upsert alignmentKey alignmentDigest
  let architecturePrefix := architecture ++ ".".toList
  pure ((sortedRows values).foldl (fun configuration row =>
    if architecturePrefix.isPrefixOf row.1 then configuration.upsert row.1 row.2 else configuration) configuration)

def selectTokenizer (values : Table Text Digest) : Table Text Digest :=
  values.deleteWhere fun key _ => !("tokenizer.".toList.isPrefixOf key && key != chatTemplateKey)

def parseMetadata (count : Nat) (limits : GgufLimits) : Parse ParsedMetadata := do
  let state ← Parser.repeatM (parseEntry limits) count .new
  let architecture ← expected state.architecture
  let prompt ← expected state.prompt
  let configuration ← Parser.lift (selectConfiguration state.values architecture)
  pure ⟨configuration, selectTokenizer state.values, prompt, state.alignment⟩

def supportedTensorType (value : Nat) : Bool := value ≤ 3 || (6 ≤ value && value ≤ 39)

structure TensorState where
  names : List Text
  offsets : List Nat

def parseDimension (elementCount : Nat) : Parse Nat := do
  let dimension ← readU64
  Parser.require (elementCount * dimension < 2 ^ 64 ∧ elementCount * dimension ≠ 0) (.error .invalidGguf)
  pure (elementCount * dimension)

def parseTensor (limits : GgufLimits) (state : TensorState) : Parse TensorState := do
  let name ← readUtf8 limits.nameBytes
  Parser.require (name ≠ [] ∧ name ∉ state.names) (.error .duplicateName)
  let dimensions ← readU32
  Parser.require (1 ≤ dimensions ∧ dimensions ≤ 4) (.error .unsupportedGguf)
  let _ ← Parser.repeatM parseDimension dimensions 1
  let tensorType ← readU32
  Parser.require (supportedTensorType tensorType = true) (.error .unsupportedGguf)
  let offset ← readU64
  enforcePosition limits.tableBytes
  pure ⟨state.names ++ [name], state.offsets ++ [offset]⟩

def parseTensors (count : Nat) (limits : GgufLimits) : Parse (List Nat) := do
  Parser.require (count < usizeLimit) (.error .limitExceeded)
  let state ← Parser.repeatM (parseTensor limits) count ⟨[], []⟩
  pure state.offsets

def componentBytes (selector : Text) (values : Table Text Digest) : Bytes :=
  encode "retonr:gguf-metadata-selection:v1\x00".toList ++ bigEndian 8 selector.byteLen ++ encode selector ++
    bigEndian 8 values.rows.length ++
    (sortedRows values).flatMap fun row => bigEndian 8 row.1.byteLen ++ (encode row.1 ++ encode row.2.asStr)

def componentDigest (selector : Text) (values : Table Text Digest) : Digest := Digest.sha256 (componentBytes selector values)

/-- A difference the source takes without a check. -/
def subtract (value other : Nat) : Parse Nat := do
  Parser.require (other ≤ value) .wrapped
  pure (value - other)

def alignUp (value alignment : Nat) : Parse Nat := do
  let mask ← subtract alignment 1
  Parser.require (value + mask < 2 ^ 64) (.error .invalidGguf)
  pure ((value + mask) &&& (2 ^ 64 - 1 - mask))

def isPowerOfTwo (value : Nat) : Bool := value == 2 ^ value.log2

def windows : List Nat → List (Nat × Nat)
  | first :: second :: rest => (first, second) :: windows (second :: rest)
  | _ => []

structure GgufComponentDigests where
  (modelConfiguration tokenizer promptTemplate : Digest)

structure GgufObservation where
  byteDigest : Digest
  (byteSize metadataCount tensorCount : Nat)
  componentDigests : GgufComponentDigests

def checkData (alignment dataBytes : Nat) (offsets : List Nat) : Bool :=
  !(dataBytes == 0 || (windows offsets).any (fun pair => pair.2 ≤ pair.1) ||
    offsets.any fun offset => dataBytes ≤ offset || offset % alignment != 0)

/-- The zero bytes up to the data region, and its size. -/
def parsePadding (declaredSize alignment : Nat) : Parse Nat := do
  let tableEnd ← getPosition
  let dataStart ← alignUp tableEnd alignment
  Parser.require (dataStart ≤ declaredSize) (.error .invalidGguf)
  let padding ← subtract dataStart tableEnd
  let bytes ← readVector padding
  Parser.require (bytes.all (· == 0) = true) (.error .invalidGguf)
  subtract declaredSize dataStart

/-- Everything up to the comparison with the expected digest. -/
def inspectBlob (declaredSize : Nat) (limits : GgufLimits) : Parse GgufObservation := do
  let magic ← readExact 4
  Parser.require (magic = ggufMagic) (.error .unsupportedGguf)
  let version ← readU32
  Parser.require (version = ggufVersion) (.error .unsupportedGguf)
  let tensorCount ← readU64
  let metadataCount ← readU64
  Parser.require (tensorCount ≠ 0 ∧ tensorCount ≤ limits.tensors ∧ metadataCount ≠ 0 ∧ metadataCount ≤ limits.metadataEntries)
    (.error .limitExceeded)
  let metadata ← parseMetadata metadataCount limits
  Parser.require (metadata.configuration.rows ≠ [] ∧ metadata.tokenizer.rows ≠ []) (.error .unsupportedGguf)
  Parser.require (1 ≤ metadata.alignment ∧ metadata.alignment ≤ 4096 ∧ isPowerOfTwo metadata.alignment = true) (.error .unsupportedGguf)
  let offsets ← parseTensors tensorCount limits
  let dataBytes ← parsePadding declaredSize metadata.alignment
  Parser.require (checkData metadata.alignment dataBytes offsets = true) (.error .invalidGguf)
  let byteDigest ← finish
  pure ⟨byteDigest, declaredSize, metadataCount, tensorCount,
    componentDigest "model-load-configuration".toList metadata.configuration,
    componentDigest "tokenizer-without-chat-template".toList metadata.tokenizer, metadata.prompt⟩

def inspectGgufV3 (reader : Reader) (expectedDigest : Digest) (declaredSize : Nat) (limits : GgufLimits) (cancelled : Cancellation) :
    Except Stop GgufObservation × ExactReader :=
  let input := ExactReader.new reader declaredSize cancelled
  if declaredSize = 0 ∨ maxGgufBytes < declaredSize ∨ limits.withinHardLimits = false then (.error (.error .limitExceeded), input)
  else Parser.start (do
    let observation ← inspectBlob declaredSize limits
    Parser.require (observation.byteDigest = expectedDigest) (.error .blobDigestMismatch)
    pure observation) input

end Retonr.Gguf
