import Retonr.Proofs.BuildOutput
import Retonr.RuntimeIsolation.BuildProtocol

/-! The payloads of the build control channel are canonical: a decoder accepts exactly what the
encoder writes, and takes it back to the value it was written from. -/

namespace Retonr.RuntimeIsolation
open Text Framing Slice List Retonr.Except

/-- Streams within what the receiver takes. -/
def ManagedStartupOutput.Bounded (output : ManagedStartupOutput) : Prop :=
  output.standardOutput.length ≤ maximumStartupStreamBytes ∧ output.standardError.length ≤ maximumStartupStreamBytes

namespace Startup

variable {bytes : Bytes} {output : ManagedStartupOutput}

theorem flags_read (output : ManagedStartupOutput) : flags output &&& ~~~0b11 = 0 ∧
    (flags output &&& 1 != 0) = output.standardOutputTruncated ∧ (flags output &&& 2 != 0) = output.standardErrorTruncated := by
  have both : ∀ first second : Bool, (first.toUInt8 ||| (second.toUInt8 <<< 1)) &&& ~~~0b11 = 0 ∧
      ((first.toUInt8 ||| (second.toUInt8 <<< 1)) &&& 1 != 0) = first ∧ ((first.toUInt8 ||| (second.toUInt8 <<< 1)) &&& 2 != 0) = second := by
    decide
  exact both _ _

theorem flags_of_reserved {byte : UInt8} (clear : byte &&& ~~~0b11 = 0) :
    (byte &&& 1 != 0).toUInt8 ||| ((byte &&& 2 != 0).toUInt8 <<< 1) = byte := by
  have table : ∀ value : Fin 256, UInt8.ofFin value &&& ~~~0b11 = 0 →
      (UInt8.ofFin value &&& 1 != 0).toUInt8 ||| ((UInt8.ofFin value &&& 2 != 0).toUInt8 <<< 1) = UInt8.ofFin value := by
    decide +kernel
  exact table byte.toFin clear

theorem encode_eq_some : encode output = some bytes ↔ (output.standardOutput.length < 2 ^ 32 ∧ output.standardError.length < 2 ^ 32) ∧
    bytes = bigEndian 4 output.standardOutput.length ++ bigEndian 4 output.standardError.length ++ [flags output] ++
      output.standardOutput ++ output.standardError := by
  rw [encode, Option.ite_none_right_eq_some, Option.some.injEq, @eq_comm _ bytes]

theorem decode_sound (read : decode bytes = .ok output) : output.Bounded ∧ encode output = some bytes := by
  simp only [decode, bind_eq_ok, require_eq_ok, exists_unit, Except.ok.injEq, checkedAdd_eq_ok, add_eq_ok] at read
  obtain ⟨-, outputSize, atStart, errorSize, afterOutput, byte, atFlags, ⟨reserved, outputFits, errorFits⟩, _, ⟨-, rfl⟩, _, ⟨-, rfl⟩, whole,
    _, ⟨-, rfl⟩, standardOutput, atOutput, standardError, atError, rfl⟩ := read
  obtain ⟨outputWidth, atStart⟩ := (range_eq_ok (by decide : 0 < 4)).mp atStart
  obtain ⟨errorWidth, afterOutput⟩ := (range_eq_ok (by decide : 0 < 4)).mp afterOutput
  obtain ⟨-, outputLength, atOutput⟩ := range_eq_ok_iff.mp atOutput
  have header : (outputSize ++ errorSize ++ [byte]).length = captureHeaderBytes := by simp [outputWidth, errorWidth, captureHeaderBytes]
  have stands : Stands bytes 0 (outputSize ++ errorSize ++ [byte] ++ standardOutput) := by
    refine stands_append.mpr ⟨stands_append.mpr ⟨stands_append.mpr ⟨atStart, ?_⟩, ?_⟩, ?_⟩
    · rwa [outputWidth]
    · rw [length_append, outputWidth, errorWidth]
      exact index_eq_ok_iff_stands.mp atFlags
    · rwa [header, Nat.zero_add]
  have shape := stands.eq_append_indexFrom (by rwa [length_append, header, outputLength])
  have errorLength : standardError.length = bigEndianNat errorSize := by
    rw [shape, length_append, length_append, header, outputLength] at whole
    omega
  have outputBytes : bigEndian 4 standardOutput.length = outputSize := by rw [outputLength, ← outputWidth, bigEndian_nat]
  have errorBytes : bigEndian 4 standardError.length = errorSize := by rw [errorLength, ← errorWidth, bigEndian_nat]
  unfold maximumStartupStreamBytes at outputFits errorFits
  refine ⟨⟨by rw [outputLength]; exact outputFits, by rw [errorLength]; exact errorFits⟩, encode_eq_some.mpr ⟨⟨?_, ?_⟩, ?_⟩⟩
  · rw [outputLength]
    omega
  · rw [errorLength]
    omega
  · rw [outputBytes, errorBytes, shape, flags, flags_of_reserved reserved]

theorem decode_complete (bounded : output.Bounded) (written : encode output = some bytes) : decode bytes = .ok output := by
  obtain ⟨⟨outputFits, errorFits⟩, rfl⟩ := encode_eq_some.mp written
  obtain ⟨outputBounded, errorBounded⟩ := bounded
  set outputSize := bigEndian 4 output.standardOutput.length with outputSize_eq
  set errorSize := bigEndian 4 output.standardError.length with errorSize_eq
  have outputNat : bigEndianNat outputSize = output.standardOutput.length := nat_bigEndian (by omega)
  have errorNat : bigEndianNat errorSize = output.standardError.length := nat_bigEndian (by omega)
  have outputWidth : outputSize.length = 4 := length_bigEndian _ _
  have errorWidth : errorSize.length = 4 := length_bigEndian _ _
  set bytes := outputSize ++ errorSize ++ [flags output] ++ output.standardOutput ++ output.standardError with bytes_eq
  have size : bytes.length = 9 + output.standardOutput.length + output.standardError.length := by
    simp only [bytes_eq, length_append, outputWidth, errorWidth, length_singleton]
  have header : (outputSize ++ errorSize ++ [flags output]).length = 9 := by simp [outputWidth, errorWidth]
  have stands : Stands bytes 0 (outputSize ++ errorSize ++ [flags output] ++ output.standardOutput) := stands_self_append
  obtain ⟨stands, atOutput⟩ := stands_append.mp stands
  obtain ⟨stands, atFlags⟩ := stands_append.mp stands
  obtain ⟨atStart, afterOutput⟩ := stands_append.mp stands
  rw [header, Nat.zero_add] at atOutput
  rw [length_append, outputWidth, errorWidth] at atFlags
  rw [outputWidth] at afterOutput
  have rest : indexFrom bytes (9 + output.standardOutput.length) = .ok output.standardError := by
    rw [← header, ← length_append]
    exact indexFrom_append
  unfold maximumStartupStreamBytes at outputBounded errorBounded
  simp only [decode, bind_eq_ok, require_eq_ok, exists_unit, Except.ok.injEq, checkedAdd_eq_ok, add_eq_ok]
  refine ⟨?_, outputSize, (range_eq_ok (by decide)).mpr ⟨outputWidth, atStart⟩, errorSize,
    (range_eq_ok (by decide)).mpr ⟨errorWidth, afterOutput⟩, flags output, index_eq_ok_iff_stands.mpr atFlags, ⟨(flags_read output).1, ?_, ?_⟩,
    _, ⟨?_, rfl⟩, _, ⟨?_, rfl⟩, ?_, _, ⟨?_, rfl⟩, output.standardOutput, range_eq_ok_iff.mpr ⟨?_, outputNat.symm, atOutput⟩,
    output.standardError, ?rest, ?value⟩
  case rest =>
    rw [outputNat]
    exact rest
  case value => rw [(flags_read output).2.1, (flags_read output).2.2]
  all_goals
    simp only [outputNat, errorNat, captureHeaderBytes, maximumStartupStreamBytes, usizeLimit]
    omega

/-- The capture decoder accepts exactly the encodings of bounded streams. -/
theorem decode_eq_ok : decode bytes = .ok output ↔ output.Bounded ∧ encode output = some bytes :=
  ⟨decode_sound, fun ⟨bounded, written⟩ => decode_complete bounded written⟩

end Startup

namespace BuildProtocol

variable {payload : Bytes}

theorem digestOf_eq_ok {value : Text} {digest : Digest} : digestOf value = .ok digest ↔ value = digest.asStr := by
  rw [← Digest.fromSha256Hex_eq_some]
  unfold digestOf
  split <;> simp [*]

variable {declaration : InputDeclaration} {part : Bytes}

theorem encodeInputDeclaration_eq_some : encodeInputDeclaration declaration = some part ↔
    validInputPath declaration.relativePath = true ∧ (encode declaration.relativePath).length < 2 ^ 16 ∧
      part = bigEndian 2 (encode declaration.relativePath).length ++ (encode declaration.relativePath ++
        (bigEndian 8 declaration.expectedBytes.toNat ++ encode declaration.expectedDigest.asStr)) := by
  simp only [encodeInputDeclaration, Option.ite_none_right_eq_some, Option.some.injEq, and_assoc, @eq_comm _ part]

theorem length_lt_of_validInputPath {path : Text} (valid : validInputPath path = true) : (encode path).length < 2 ^ 16 := by
  simp only [validInputPath, Bool.and_eq_true, decide_eq_true_eq] at valid
  have short := valid.1.1.1.1.1.2
  unfold maximumInputPathBytes at short
  rw [length_encode]
  omega

variable {offset : Nat}

theorem decodeInputDeclaration_sound {stop : Nat} (read : decodeInputDeclaration payload offset = .ok (declaration, stop)) :
    ∃ part, encodeInputDeclaration declaration = some part ∧ Stands payload offset part ∧ stop = offset + part.length := by
  simp only [decodeInputDeclaration, bind_eq_ok, require_eq_ok, exists_unit, Except.ok.injEq, checkedAdd_eq_ok, add_eq_ok,
    text_eq_ok, digestOf_eq_ok, Prod.mk.injEq] at read
  obtain ⟨_, ⟨-, rfl⟩, size, atSize, _, ⟨-, rfl⟩, _, ⟨-, rfl⟩, _, atPath, path, rfl, valid, _, ⟨-, rfl⟩, _, ⟨-, rfl⟩, count, atCount, _, atDigest,
    _, rfl, digest, rfl, rfl, rfl⟩ := read
  obtain ⟨-, sizeWidth, atSize⟩ := get_eq_ok_iff.mp atSize
  obtain ⟨-, pathLength, atPath⟩ := get_eq_ok_iff.mp atPath
  obtain ⟨-, countWidth, atCount⟩ := get_eq_ok_iff.mp atCount
  have atDigest : Stands payload (offset + 2 + bigEndianNat size + 8) (encode digest.asStr) :=
    (get_eq_ok_iff_stands (by decide : 0 < 64)).mp atDigest |>.2
  have sizeBytes : bigEndian 2 (encode path).length = size := by rw [pathLength, ← sizeWidth, bigEndian_nat]
  have countBytes : bigEndian 8 (UInt64.ofNat (bigEndianNat count)).toNat = count := by
    have fits : bigEndianNat count < 2 ^ 64 := by
      have bound := bigEndianNat_lt count
      rwa [countWidth] at bound
    rw [UInt64.toNat_ofNat', Nat.mod_eq_of_lt fits, ← countWidth, bigEndian_nat]
  refine ⟨_, encodeInputDeclaration_eq_some.mpr ⟨valid, length_lt_of_validInputPath valid, rfl⟩, ?_, ?_⟩
  · rw [sizeBytes, countBytes]
    refine stands_append.mpr ⟨atSize, stands_append.mpr ⟨?_, stands_append.mpr ⟨?_, ?_⟩⟩⟩
    · rwa [sizeWidth]
    · rwa [sizeWidth, pathLength]
    · rwa [sizeWidth, pathLength, countWidth]
  · simp only [length_append, length_bigEndian, pathLength, length_encode digest.asStr, digest.byteLen_asStr, inputDeclarationSuffixBytes]
    omega

theorem decodeInputDeclaration_complete (written : encodeInputDeclaration declaration = some part) (stands : Stands payload offset part)
    (fits : offset + part.length < usizeLimit) : decodeInputDeclaration payload offset = .ok (declaration, offset + part.length) := by
  obtain ⟨valid, short, rfl⟩ := encodeInputDeclaration_eq_some.mp written
  have inside := stands.stop_le (by simp [← length_pos_iff])
  obtain ⟨atSize, stands⟩ := stands_append.mp stands
  obtain ⟨atPath, stands⟩ := stands_append.mp stands
  obtain ⟨atCount, atDigest⟩ := stands_append.mp stands
  have digestWidth : (encode declaration.expectedDigest.asStr).length = 64 := by rw [length_encode, declaration.expectedDigest.byteLen_asStr]
  simp only [length_append, length_bigEndian, digestWidth] at atPath atCount atDigest fits inside ⊢
  have sizeNat : bigEndianNat (bigEndian 2 (encode declaration.relativePath).length) = (encode declaration.relativePath).length :=
    nat_bigEndian short
  have suffix : inputDeclarationSuffixBytes = 72 := rfl
  have countNat : bigEndianNat (bigEndian 8 declaration.expectedBytes.toNat) = declaration.expectedBytes.toNat :=
    nat_bigEndian declaration.expectedBytes.toNat_lt
  simp only [decodeInputDeclaration, bind_eq_ok, require_eq_ok, exists_unit, Except.ok.injEq, checkedAdd_eq_ok, add_eq_ok,
    text_eq_ok, digestOf_eq_ok, Prod.mk.injEq]
  refine ⟨_, ⟨?_, rfl⟩, _, get_eq_ok_iff.mpr ⟨?_, length_bigEndian _ _, atSize⟩, _, ⟨?_, rfl⟩, _, ⟨?_, rfl⟩, _,
    get_eq_ok_iff.mpr ⟨?_, sizeNat.symm, atPath⟩, _, rfl, valid, _, ⟨?_, rfl⟩, _, ⟨?_, rfl⟩,
    bigEndian 8 declaration.expectedBytes.toNat, get_eq_ok_iff.mpr ⟨?_, length_bigEndian _ _, ?count⟩, _, get_eq_ok_iff.mpr ⟨?_, digestWidth, ?digest⟩, _, rfl, _, rfl, ?value, ?stop⟩
  case count =>
    rw [sizeNat]
    exact atCount
  case digest =>
    rw [sizeNat]
    exact atDigest
  case value => rw [countNat, UInt64.ofNat_toNat]
  all_goals omega

variable {declarations : List InputDeclaration}

theorem decodeEach_sound {count stop : Nat} (read : decodeEach payload count offset = .ok (declarations, stop)) : declarations.length = count ∧
      ∃ parts, declarations.mapM encodeInputDeclaration = some parts ∧ Stands payload offset parts.flatten ∧
        stop = offset + parts.flatten.length := by
  induction count generalizing offset declarations with
  | zero =>
    cases read
    exact ⟨rfl, [], rfl, nil_prefix, rfl⟩
  | succ count ih =>
    obtain ⟨⟨declaration, next⟩, here, read⟩ := bind_eq_ok.mp read
    obtain ⟨⟨others, last⟩, there, read⟩ := bind_eq_ok.mp read
    cases read
    obtain ⟨part, written, stands, rfl⟩ := decodeInputDeclaration_sound here
    obtain ⟨length, parts, writtenRest, standsRest, rfl⟩ := ih there
    refine ⟨by rw [length_cons, length], part :: parts, ?_, stands_append.mpr ⟨stands, standsRest⟩, ?_⟩
    · simp [mapM_cons, written, writtenRest]
    · rw [flatten_cons, length_append, Nat.add_assoc]

theorem decodeEach_complete {parts : List Bytes}
    (written : declarations.mapM encodeInputDeclaration = some parts) (stands : Stands payload offset parts.flatten)
    (fits : offset + parts.flatten.length < usizeLimit) :
    decodeEach payload declarations.length offset = .ok (declarations, offset + parts.flatten.length) := by
  induction declarations generalizing offset parts with
  | nil =>
    simp only [mapM_nil, Option.pure_def, Option.some.injEq] at written
    subst written
    rfl
  | cons declaration declarations ih =>
    simp only [mapM_cons, Option.pure_def, Option.bind_eq_bind, Option.bind_eq_some_iff, Option.some.injEq] at written
    obtain ⟨part, here, parts, there, rfl⟩ := written
    obtain ⟨standsHere, standsRest⟩ := stands_append.mp stands
    rw [flatten_cons, length_append] at fits
    have first := decodeInputDeclaration_complete here standsHere (by omega)
    have others := ih there standsRest (by omega)
    simp only [length_cons, decodeEach, first, others, ok_bind, flatten_cons, length_append, Nat.add_assoc]

theorem length_encodeInputDeclaration_le (written : encodeInputDeclaration declaration = some part) :
    part.length < 2 ^ 16 + 2 + inputDeclarationSuffixBytes := by
  obtain ⟨-, short, rfl⟩ := encodeInputDeclaration_eq_some.mp written
  simp only [length_append, length_bigEndian, length_encode declaration.expectedDigest.asStr, Digest.byteLen_asStr,
    inputDeclarationSuffixBytes]
  omega

theorem length_flatten_le {parts : List Bytes}
    (written : declarations.mapM encodeInputDeclaration = some parts) : parts.flatten.length ≤ declarations.length * 2 ^ 17 := by
  induction declarations generalizing parts with
  | nil =>
    simp only [mapM_nil, Option.pure_def, Option.some.injEq] at written
    subst written
    exact Nat.zero_le _
  | cons declaration declarations ih =>
    simp only [mapM_cons, Option.pure_def, Option.bind_eq_bind, Option.bind_eq_some_iff, Option.some.injEq] at written
    obtain ⟨part, here, parts, there, rfl⟩ := written
    have bound := length_encodeInputDeclaration_le here
    have others := ih there
    unfold inputDeclarationSuffixBytes at bound
    rw [flatten_cons, length_append, length_cons]
    omega

theorem encodeInputDeclarations_eq_some : encodeInputDeclarations declarations = some payload ↔
    declarations ≠ [] ∧ declarations.length ≤ maxReceivedDescriptors ∧
      ∃ parts, declarations.mapM encodeInputDeclaration = some parts ∧ payload = 2 :: UInt8.ofNat declarations.length :: parts.flatten := by
  simp only [encodeInputDeclarations, Option.ite_none_left_eq_some, not_or, Nat.not_lt, Option.bind_eq_bind, Option.bind_eq_some_iff,
    Option.some.injEq, and_assoc, @eq_comm _ payload, ne_eq]

theorem decodeInputDeclarations_eq_ok :
    decodeInputDeclarations payload = .ok declarations ↔ encodeInputDeclarations declarations = some payload := by
  simp only [decodeInputDeclarations, bind_eq_ok, require_eq_ok, exists_unit, Except.ok.injEq, Prod.exists]
  rw [encodeInputDeclarations_eq_some]
  constructor
  · rintro ⟨-, _, atVersion, rfl, count, atCount, ⟨nonzero, few⟩, _, stop, read, whole, rfl⟩
    obtain ⟨length, parts, written, stands, rfl⟩ := decodeEach_sound read
    have header : Stands payload 0 ([2] ++ [count] ++ parts.flatten) :=
      stands_append.mpr ⟨stands_append.mpr ⟨index_eq_ok_iff_stands.mp atVersion, index_eq_ok_iff_stands.mp atCount⟩, stands⟩
    refine ⟨?_, length ▸ few, parts, written, ?_⟩
    · rintro rfl
      exact nonzero (UInt8.toNat_inj.mp length.symm)
    · have shape := header.eq_append
      have size : ([2] ++ [count] ++ parts.flatten).length = payload.length := by
        rw [← whole]
        simp only [length_append, length_singleton, inputPathHeaderBytes]
      rw [size, drop_length, append_nil] at shape
      rw [length, UInt8.ofNat_toNat]
      exact shape
  · rintro ⟨filled, few, parts, written, rfl⟩
    have size := length_flatten_le written
    unfold maxReceivedDescriptors at few
    have count : (UInt8.ofNat declarations.length).toNat = declarations.length := by
      rw [UInt8.toNat_ofNat', Nat.mod_eq_of_lt (by omega)]
    have fits : inputPathHeaderBytes + parts.flatten.length < usizeLimit := by
      unfold inputPathHeaderBytes usizeLimit
      omega
    have stands : Stands (2 :: UInt8.ofNat declarations.length :: parts.flatten) inputPathHeaderBytes parts.flatten := prefix_rfl
    have read := decodeEach_complete written stands fits
    refine ⟨by simp [inputPathHeaderBytes], 2, rfl, rfl, _, rfl, ⟨?_, ?_⟩, declarations, inputPathHeaderBytes + parts.flatten.length, ?_, ?_, rfl⟩
    · intro zero
      rw [zero] at count
      exact filled (length_eq_zero_iff.mp count.symm)
    · rw [count]
      exact few
    · rw [count]
      exact read
    · simp only [length_cons, inputPathHeaderBytes]
      omega

theorem decodeInputCount_eq_ok {count : Nat} : decodeInputCount payload = .ok count ↔ encodeInputCount count = some payload := by
  simp only [decodeInputCount, encodeInputCount, bind_eq_ok, require_eq_ok, exists_unit, Except.ok.injEq]
  constructor
  · rintro ⟨length, _, atVersion, rfl, bytes, atCount, ⟨positive, few⟩, rfl⟩
    obtain ⟨width, atCount⟩ := (range_eq_ok (by decide : 0 < 4)).mp atCount
    have stands : Stands payload 0 ([1] ++ bytes) := stands_append.mpr ⟨index_eq_ok_iff_stands.mp atVersion, atCount⟩
    have shape := stands.eq_append
    have size : ([1] ++ bytes).length = payload.length := by
      rw [length, length_append, width]
      rfl
    rw [size, drop_length, append_nil] at shape
    rw [if_neg (by omega), ← width, bigEndian_nat, shape]
    rfl
  · intro written
    split at written
    next => cases written
    next inside =>
      cases written
      have bound : count ≤ 1024 := by
        unfold maximumControlledBuildInputFiles at inside
        omega
      have value : bigEndianNat (bigEndian 4 count) = count := nat_bigEndian (by omega)
      have stands : Stands (1 :: bigEndian 4 count) 1 (bigEndian 4 count) := prefix_rfl
      refine ⟨by simp [inputCountBytes], 1, rfl, rfl, _, (range_eq_ok (by decide)).mpr ⟨length_bigEndian _ _, stands⟩, ?_, value⟩
      rw [value]
      omega

theorem decodeStatus_eq_ok {kind : UInt8} {code : Int32} {status : ControlledBuildProcessStatus} :
    decodeStatus kind code = .ok status ↔ statusFields status = some (kind, code) := by
  constructor
  · intro read
    unfold decodeStatus at read
    split_ifs at read <;> cases read <;> simp [statusFields, *]
  · intro fields
    cases status <;> simp only [statusFields, Option.ite_none_right_eq_some, Option.some.injEq, Prod.mk.injEq] at fields
    · obtain ⟨rfl, rfl⟩ := fields
      rfl
    · obtain ⟨positive, rfl, rfl⟩ := fields
      simp [decodeStatus, positive]
    · obtain ⟨positive, rfl, rfl⟩ := fields
      simp [decodeStatus, positive]

theorem length_codeBytes (code : Int32) : (codeBytes code).length = 4 := length_bigEndian _ _

theorem codeOf_codeBytes (code : Int32) : codeOf (codeBytes code) = code := by
  have value : bigEndianNat (codeBytes code) = code.toUInt32.toNat := nat_bigEndian code.toUInt32.toNat_lt
  rw [codeOf, value]
  simp

theorem codeBytes_codeOf {bytes : Bytes} (width : bytes.length = 4) : codeBytes (codeOf bytes) = bytes := by
  have fits : bigEndianNat bytes < 2 ^ 32 := by
    have bound := bigEndianNat_lt bytes
    rwa [width] at bound
  have value : (codeOf bytes).toUInt32.toNat = bigEndianNat bytes := by
    change (UInt32.ofNat (bigEndianNat bytes)).toNat = _
    rw [UInt32.toNat_ofNat', Nat.mod_eq_of_lt fits]
  rw [codeBytes, value, ← width, bigEndian_nat]

section Header

variable {version kind : UInt8} {code rest : Bytes}

theorem stands_header (atVersion : index payload 0 = .ok version) (atKind : index payload 1 = .ok kind)
    (atCode : range payload 2 6 = .ok code) : code.length = 4 ∧ Stands payload 0 (version :: kind :: code) := by
  obtain ⟨width, atCode⟩ := (range_eq_ok (by decide : 0 < 4)).mp atCode
  have both : Stands payload 0 ([version] ++ [kind]) := stands_append.mpr ⟨index_eq_ok_iff_stands.mp atVersion, index_eq_ok_iff_stands.mp atKind⟩
  exact ⟨width, stands_append.mpr ⟨both, atCode⟩⟩

theorem range_header (width : code.length = 4) : range (version :: kind :: (code ++ rest)) 2 6 = .ok code := by
  have stands : Stands (version :: kind :: (code ++ rest)) 2 code := prefix_append _ _
  exact (range_eq_ok (by decide)).mpr ⟨width, stands⟩

end Header

variable {output : ControlledBuildOutput}

theorem encodeProcessFinished_eq_some : encodeProcessFinished output = some payload ↔
    output.tree = none ∧ ∃ kind code, statusFields output.status = some (kind, code) ∧
      ∃ streams, Startup.encode output.streams = some streams ∧ payload = 1 :: kind :: (codeBytes code ++ streams) := by
  unfold encodeProcessFinished
  cases output.tree with
  | none => simp [Option.bind_eq_some_iff, @eq_comm _ payload]
  | some tree => simp

theorem decodeProcessFinished_eq_ok :
    decodeProcessFinished payload = .ok output ↔ output.streams.Bounded ∧ encodeProcessFinished output = some payload := by
  rw [encodeProcessFinished_eq_some]
  simp only [decodeProcessFinished, bind_eq_ok, require_eq_ok, exists_unit, Except.ok.injEq, decodeStatus_eq_ok,
    Startup.decode_eq_ok]
  constructor
  · rintro ⟨-, _, atVersion, rfl, bytes, atCode, kind, atKind, status, fields, rest, atRest, streams, ⟨bounded, written⟩, rfl⟩
    obtain ⟨width, stands⟩ := stands_header atVersion atKind atCode
    refine ⟨bounded, rfl, kind, codeOf bytes, fields, rest, written, ?_⟩
    rw [codeBytes_codeOf width]
    exact stands.eq_append_indexFrom (by rwa [length_cons, length_cons, width])
  · rintro ⟨bounded, treeless, kind, code, fields, rest, written, rfl⟩
    have width := length_codeBytes code
    have atRest : indexFrom (1 :: kind :: (codeBytes code ++ rest)) 6 = .ok rest :=
      indexFrom_eq_ok.mpr ⟨1 :: kind :: codeBytes code, rfl, by rw [length_cons, length_cons, width]⟩
    refine ⟨?_, 1, rfl, rfl, _, range_header width, kind, rfl, output.status, ?_, rest, atRest, output.streams, ⟨bounded, written⟩, ?_⟩
    · simp only [length_cons, length_append, width]
      omega
    · rw [codeOf_codeBytes]
      exact fields
    · rw [← treeless]

theorem length_encodeTree (tree : ControlledBuildOutputTree) : (encodeTree tree).length = treeBytes := by
  simp only [encodeTree, length_append, length_bigEndian, length_encode, tree.digest.byteLen_asStr, treeBytes]

theorem decodeTree_sound {bytes : Bytes} {tree : ControlledBuildOutputTree} (width : bytes.length = treeBytes)
    (read : decodeTree bytes = .ok tree) : bytes = encodeTree tree := by
  simp only [decodeTree, bind_eq_ok, text_eq_ok, digestOf_eq_ok, mapError_eq_ok, ControlledBuildOutputTree.fromParts_eq_ok] at read
  obtain ⟨_, atDigest, _, rfl, _, rfl, entries, atEntries, files, atFiles, total, atTotal, rfl, entryCount, fileCount, totalBytes⟩ := read
  obtain ⟨digestWidth, atDigest⟩ := (range_eq_ok (by decide : 0 < 64)).mp atDigest
  obtain ⟨entriesWidth, atEntries⟩ := (range_eq_ok (by decide : 0 < 4)).mp atEntries
  obtain ⟨filesWidth, atFiles⟩ := (range_eq_ok (by decide : 0 < 4)).mp atFiles
  obtain ⟨totalWidth, atTotal⟩ := (range_eq_ok (by decide : 0 < 8)).mp atTotal
  have fields : encodeTree tree = encode tree.digest.asStr ++ (entries ++ (files ++ total)) := by
    rw [encodeTree, entryCount, fileCount, totalBytes]
    nth_rewrite 1 [← entriesWidth, ← filesWidth]
    rw [← totalWidth, bigEndian_nat, bigEndian_nat, bigEndian_nat]
  have stands : Stands bytes 0 (encodeTree tree) := by
    rw [fields]
    refine stands_append.mpr ⟨atDigest, stands_append.mpr ⟨?_, stands_append.mpr ⟨?_, ?_⟩⟩⟩
    · rwa [digestWidth]
    · rwa [digestWidth, entriesWidth]
    · rwa [digestWidth, entriesWidth, filesWidth]
  have shape := stands.eq_append
  rwa [length_encodeTree, ← width, drop_length, append_nil] at shape

theorem decodeTree_encodeTree (tree : ControlledBuildOutputTree) : decodeTree (encodeTree tree) = .ok tree := by
  have entriesBounded := tree.entriesBounded
  have filesBounded := tree.filesBounded
  have bytesBounded := tree.bytesBounded
  unfold maximumControlledBuildOutputTreeEntries at entriesBounded
  unfold maximumControlledBuildOutputBytes at bytesBounded
  have digestWidth : (encode tree.digest.asStr).length = 64 := by rw [length_encode, tree.digest.byteLen_asStr]
  have stands : Stands (encodeTree tree) 0 (encodeTree tree) := prefix_rfl
  obtain ⟨atDigest, stands⟩ := stands_append.mp stands
  obtain ⟨atEntries, stands⟩ := stands_append.mp stands
  obtain ⟨atFiles, atTotal⟩ := stands_append.mp stands
  simp only [length_bigEndian, digestWidth, Nat.zero_add, Nat.reduceAdd] at atEntries atFiles atTotal
  simp only [decodeTree, bind_eq_ok, text_eq_ok, digestOf_eq_ok, mapError_eq_ok, ControlledBuildOutputTree.fromParts_eq_ok]
  exact ⟨_, (range_eq_ok (by decide)).mpr ⟨digestWidth, atDigest⟩, _, rfl, _, rfl, _,
    (range_eq_ok (by decide)).mpr ⟨length_bigEndian _ _, atEntries⟩, _, (range_eq_ok (by decide)).mpr ⟨length_bigEndian _ _, atFiles⟩, _,
    (range_eq_ok (by decide)).mpr ⟨length_bigEndian _ _, atTotal⟩, rfl, (nat_bigEndian (by omega)).symm, (nat_bigEndian (by omega)).symm,
    (nat_bigEndian (by omega)).symm⟩

theorem expectedTree_eq_some {tree : Option ControlledBuildOutputTree} :
    expectedTree output = some tree ↔ output.tree = tree ∧ (tree.isSome = true ↔ output.status = .success) := by
  obtain ⟨status, streams, carried⟩ := output
  cases status <;> cases carried <;> cases tree <;> simp [expectedTree]

theorem encodeFinished_eq_some : encodeFinished output = some payload ↔
    (output.tree.isSome = true ↔ output.status = .success) ∧ ∃ kind code, statusFields output.status = some (kind, code) ∧
      ∃ streams, Startup.encode output.streams = some streams ∧
        payload = 2 :: kind :: (codeBytes code ++ (output.tree.isSome.toUInt8 :: ((output.tree.map encodeTree).getD [] ++ streams))) := by
  unfold encodeFinished
  simp only [Option.bind_eq_bind, Option.bind_eq_some_iff, Prod.exists, expectedTree_eq_some, Option.some.injEq]
  constructor
  · rintro ⟨kind, code, fields, _, ⟨rfl, expected⟩, streams, written, rfl⟩
    exact ⟨expected, kind, code, fields, streams, written, rfl⟩
  · rintro ⟨expected, kind, code, fields, streams, written, rfl⟩
    exact ⟨kind, code, fields, _, ⟨rfl, expected⟩, streams, written, rfl⟩

theorem decodeFinished_sound (read : decodeFinished payload = .ok output) : output.streams.Bounded ∧ encodeFinished output = some payload := by
  rw [encodeFinished_eq_some]
  simp only [decodeFinished, bind_eq_ok, require_eq_ok, exists_unit, decodeStatus_eq_ok] at read
  obtain ⟨-, _, atVersion, rfl, bytes, atCode, kind, atKind, status, fields, marker, atMarker, known, expected, read⟩ := read
  obtain ⟨width, stands⟩ := stands_header atVersion atKind atCode
  have header : (2 :: kind :: bytes).length = 6 := by rw [length_cons, length_cons, width]
  have marked : Stands payload 0 (2 :: kind :: bytes ++ [marker]) := by
    refine stands_append.mpr ⟨stands, ?_⟩
    rw [header]
    exact index_eq_ok_iff_stands.mp atMarker
  have behind : (2 :: kind :: bytes ++ [marker]).length = resultHeaderBytes := by rw [length_append, header]; rfl
  split at read
  next one =>
    simp only [bind_eq_ok, require_eq_ok, exists_unit, Except.ok.injEq, Startup.decode_eq_ok] at read
    obtain ⟨-, part, atTree, tree, readTree, rest, atRest, streams, ⟨bounded, written⟩, rfl⟩ := read
    obtain ⟨treeWidth, atTree⟩ := (range_eq_ok (by decide : 0 < treeBytes)).mp atTree
    obtain rfl := decodeTree_sound treeWidth readTree
    have all : Stands payload 0 (2 :: kind :: bytes ++ [marker] ++ encodeTree tree) := by
      refine stands_append.mpr ⟨marked, ?_⟩
      rwa [behind, Nat.zero_add]
    have shape := all.eq_append_indexFrom (by rwa [length_append, behind, treeWidth])
    refine ⟨bounded, ⟨fun _ => expected.mp one, fun _ => rfl⟩, kind, codeOf bytes, fields, rest, written, ?_⟩
    rw [codeBytes_codeOf width, shape, one]
    simp [Bool.toUInt8]
  next zero =>
    simp only [bind_eq_ok, Except.ok.injEq, Startup.decode_eq_ok] at read
    obtain ⟨rest, atRest, streams, ⟨bounded, written⟩, rfl⟩ := read
    have shape := marked.eq_append_indexFrom (by rwa [behind])
    refine ⟨bounded, ⟨by rintro ⟨⟩, fun success => (zero (expected.mpr success)).elim⟩, kind, codeOf bytes, fields, rest, written, ?_⟩
    rw [codeBytes_codeOf width, shape, known.resolve_right zero]
    simp [Bool.toUInt8]

theorem decodeFinished_complete (bounded : output.streams.Bounded)
    (encoded : encodeFinished output = some payload) : decodeFinished payload = .ok output := by
  obtain ⟨expected, kind, code, fields, rest, written, shape⟩ := encodeFinished_eq_some.mp encoded
  have width := length_codeBytes code
  set marker := output.tree.isSome.toUInt8 with marker_eq
  set header := 2 :: kind :: codeBytes code ++ [marker] with header_eq
  have headerWidth : header.length = resultHeaderBytes := by simp [header_eq, width, resultHeaderBytes]
  have whole : payload = header ++ ((output.tree.map encodeTree).getD [] ++ rest) := by simp [shape, header_eq]
  have atMarker : index payload 6 = .ok marker := by
    have stands : Stands payload 0 header := whole ▸ stands_self_append
    have behind := (stands_append.mp stands).2
    rw [length_cons, length_cons, width] at behind
    exact index_eq_ok_iff_stands.mpr behind
  simp only [decodeFinished, bind_eq_ok, require_eq_ok, exists_unit, decodeStatus_eq_ok]
  refine ⟨?_, 2, by rw [shape]; rfl, rfl, _, by rw [shape]; exact range_header width, kind, by rw [shape]; rfl, output.status,
    by rwa [codeOf_codeBytes], marker, atMarker, ?_, ?_, ?_⟩
  · rw [whole, length_append, headerWidth]
    exact Nat.le_add_right _ _
  · rw [marker_eq]
    cases output.tree.isSome
    · exact Or.inl rfl
    · exact Or.inr rfl
  · rw [← expected, marker_eq]
    cases output.tree.isSome <;> decide
  · obtain ⟨status, streams, tree⟩ := output
    cases tree with
    | none =>
      have plain : marker ≠ 1 := (by decide : false.toUInt8 ≠ 1)
      have atRest : indexFrom payload resultHeaderBytes = .ok rest := by
        rw [whole, ← headerWidth]
        exact indexFrom_append
      rw [if_neg plain]
      simp only [bind_eq_ok, Except.ok.injEq, Startup.decode_eq_ok]
      exact ⟨rest, atRest, streams, ⟨bounded, written⟩, rfl⟩
    | some tree =>
      have carries : marker = 1 := marker_eq
      have stands : Stands payload 0 (header ++ encodeTree tree) := by
        rw [whole, ← append_assoc]
        exact stands_self_append
      have atTree := (stands_append.mp stands).2
      rw [headerWidth, Nat.zero_add] at atTree
      have atRest : indexFrom payload (resultHeaderBytes + treeBytes) = .ok rest := by
        rw [whole, ← headerWidth, ← length_encodeTree tree, ← length_append, ← append_assoc]
        exact indexFrom_append
      rw [if_pos carries]
      simp only [bind_eq_ok, require_eq_ok, exists_unit, Except.ok.injEq, Startup.decode_eq_ok]
      refine ⟨?_, _, (range_eq_ok (by decide)).mpr ⟨length_encodeTree tree, atTree⟩, tree, decodeTree_encodeTree tree, rest, atRest, streams,
        ⟨bounded, written⟩, rfl⟩
      have fits := stands.length_le
      rwa [length_append, headerWidth, length_encodeTree] at fits

theorem decodeFinished_eq_ok : decodeFinished payload = .ok output ↔ output.streams.Bounded ∧ encodeFinished output = some payload :=
  ⟨decodeFinished_sound, fun ⟨bounded, encoded⟩ => decodeFinished_complete bounded encoded⟩

/-- The decoders of the control channel accept exactly what its encoders write, for the value they return. -/
theorem control_payloads_are_canonical : (∀ payload count, decodeInputCount payload = .ok count ↔ encodeInputCount count = some payload) ∧
    (∀ payload declarations, decodeInputDeclarations payload = .ok declarations ↔ encodeInputDeclarations declarations = some payload) ∧
    (∀ bytes streams, Startup.decode bytes = .ok streams ↔ streams.Bounded ∧ Startup.encode streams = some bytes) ∧
    (∀ payload output, decodeFinished payload = .ok output ↔ output.streams.Bounded ∧ encodeFinished output = some payload) ∧
    (∀ payload output, decodeProcessFinished payload = .ok output ↔ output.streams.Bounded ∧ encodeProcessFinished output = some payload) :=
  ⟨fun _ _ => decodeInputCount_eq_ok, fun _ _ => decodeInputDeclarations_eq_ok, fun _ _ => Startup.decode_eq_ok, fun _ _ => decodeFinished_eq_ok,
    fun _ _ => decodeProcessFinished_eq_ok⟩

end BuildProtocol

end Retonr.RuntimeIsolation
