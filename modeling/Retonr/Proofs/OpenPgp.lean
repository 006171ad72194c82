import Retonr.OllamaPackage.OpenPgp

/-! Every byte of an accepted packet sequence belongs to one header or one body, and every byte of an
accepted signature to one of its fields. -/

namespace Retonr.OpenPgp
open Slice Framing List Retonr.Except

/-- The octets that spell a length in the new format. -/
inductive LengthOctets : Bytes → Nat → Prop where
  | one {value : UInt8} (small : value ≤ 191) : LengthOctets [value] value.toNat
  | two {high low : UInt8} (above : 192 ≤ high) (below : high ≤ 223) : LengthOctets [high, low] ((high.toNat - 192) * 256 + low.toNat + 192)
  | five {bytes : Bytes} (four : bytes.length = 4) : LengthOctets (255 :: bytes) (bigEndianNat bytes)

/-- The header of a packet in the new or the old format, with the tag and the length of the body it announces. -/
inductive Header : Bytes → UInt8 → Nat → Prop where
  | new {first : UInt8} {octets : Bytes} {length : Nat} (marked : first &&& 0x80 ≠ 0) (format : first &&& 0x40 ≠ 0)
      (spelled : LengthOctets octets length) : Header (first :: octets) (first &&& 0x3f) length
  | old {first : UInt8} {octets : Bytes} (marked : first &&& 0x80 ≠ 0) (format : first &&& 0x40 = 0)
      (width : octets.length = 2 ^ (first &&& 0x03).toNat) (closed : first &&& 0x03 ≠ 3) :
      Header (first :: octets) ((first >>> 2) &&& 0x0f) (bigEndianNat octets)

/-- A packet as it stands in the input. -/
def PacketPart (packet : Packet) (part : Bytes) : Prop :=
  ∃ header, part = header ++ packet.body ∧ Header header packet.tag packet.body.length

/-- A subpacket as it stands in its area. -/
def SubpacketPart (subpacket : Subpacket) (part : Bytes) : Prop :=
  ∃ octets kindOctet, part = octets ++ kindOctet :: subpacket.body ∧ LengthOctets octets (subpacket.body.length + 1) ∧
    subpacket.kind = kindOctet &&& 0x7f

theorem beUsize_eq_ok {bytes : Bytes} {value : Nat} (read : beUsize bytes = .ok value) : bytes.length ≤ 4 ∧ value = bigEndianNat bytes := by
  simp only [beUsize, bind_eq_ok, exists_unit, require_eq_ok] at read
  obtain ⟨sizes, folded⟩ := read
  have short : bytes.length ≤ 4 := by omega
  rw [foldlM_shiftIn (by omega)] at folded
  exact ⟨short, (Except.ok.inj folded).symm⟩

theorem newLength_eq_ok {input : Bytes} {length used : Nat} (read : newLength input = .ok (length, used)) :
    ∃ octets rest, input = octets ++ rest ∧ LengthOctets octets length ∧ octets.length = used := by
  simp only [newLength, bind_eq_ok] at read
  obtain ⟨value, opened, read⟩ := read
  obtain ⟨tail, rfl⟩ := first_eq_ok.mp opened
  split at read
  next small =>
    cases read
    exact ⟨[value], tail, rfl, .one small, rfl⟩
  next large =>
    split at read
    next medium =>
      simp only [bind_eq_ok, mul_eq_ok, getAt_eq_ok, add_eq_ok] at read
      obtain ⟨_, ⟨-, rfl⟩, low, found, _, ⟨-, rfl⟩, _, ⟨-, rfl⟩, read⟩ := read
      cases read
      obtain ⟨rest, rfl⟩ := List.head?_eq_some_iff.mp (List.head?_eq_getElem?.trans found)
      have above : 192 ≤ value := by
        rw [UInt8.le_iff_toNat_le] at large ⊢
        exact Nat.lt_of_not_le large
      rw [UInt8.toNat_sub_of_le _ _ above]
      exact ⟨[value, low], rest, rfl, .two above medium, rfl⟩
    next high =>
      split at read
      next five =>
        simp only [bind_eq_ok, get_eq_ok] at read
        obtain ⟨bytes, ⟨before, rest, split, single, -, four⟩, length, spelled, read⟩ := read
        cases read
        obtain ⟨byte, rfl⟩ := length_eq_one_iff.mp single
        obtain ⟨rfl, rfl⟩ := cons_eq_cons.mp split
        obtain ⟨-, rfl⟩ := beUsize_eq_ok spelled
        subst five
        exact ⟨255 :: bytes, rest, rfl, .five four, by rw [length_cons, four]⟩
      next => cases read

theorem oldWidth_eq_ok {first : UInt8} {width : Nat} (read : oldWidth first = .ok width) :
    width = 2 ^ (first &&& 0x03).toNat ∧ first &&& 0x03 ≠ 3 := by
  unfold oldWidth at read
  split at read
  next kind => cases read; rw [kind]; decide
  split at read
  next kind => cases read; rw [kind]; decide
  split at read
  next kind => cases read; rw [kind]; decide
  next => cases read

theorem packetHeader_eq_ok {input : Bytes} {tag : UInt8} {length used : Nat} (read : packetHeader input = .ok (tag, length, used)) :
    ∃ header rest, input = header ++ rest ∧ Header header tag length ∧ header.length = used := by
  simp only [packetHeader, bind_eq_ok, exists_unit, require_eq_ok, index_eq_ok] at read
  obtain ⟨first, opened, marked, read⟩ := read
  obtain ⟨tail, rfl⟩ := List.head?_eq_some_iff.mp (List.head?_eq_getElem?.trans opened)
  split at read
  next format =>
    simp only [bind_eq_ok, Prod.exists, add_eq_ok, getFrom_eq_ok] at read
    obtain ⟨body, ⟨before, split, single⟩, length, octetCount, sized, _, ⟨-, rfl⟩, read⟩ := read
    cases read
    obtain ⟨byte, rfl⟩ := length_eq_one_iff.mp single
    obtain ⟨rfl, rfl⟩ := cons_eq_cons.mp split
    obtain ⟨octets, rest, rfl, spelled, rfl⟩ := newLength_eq_ok sized
    exact ⟨first :: octets, rest, rfl, .new marked format spelled, rfl⟩
  next format =>
    simp only [bind_eq_ok, add_eq_ok, get_eq_ok] at read
    obtain ⟨width, sized, _, ⟨-, rfl⟩, bytes, ⟨before, rest, split, single, -, taken⟩, length, spelled, _, ⟨-, rfl⟩, read⟩ := read
    cases read
    obtain ⟨byte, rfl⟩ := length_eq_one_iff.mp single
    obtain ⟨rfl, rfl⟩ := cons_eq_cons.mp split
    obtain ⟨-, rfl⟩ := beUsize_eq_ok spelled
    obtain ⟨rfl, closed⟩ := oldWidth_eq_ok sized
    rw [Nat.add_sub_cancel_left] at taken
    exact ⟨first :: bytes, rest, rfl, .old marked (not_not.mp format) taken closed, by rw [length_cons, taken]⟩

theorem packet_eq_ok {maximumBody : Nat} {input rest : Bytes} {item : Packet} (read : packet maximumBody input = .ok (item, rest)) :
    ∃ part, input = part ++ rest ∧ PacketPart item part := by
  simp only [packet, bind_eq_ok, exists_unit, require_eq_ok, Prod.exists, checkedAdd_eq_ok] at read
  obtain ⟨tag, length, used, headed, -, _, ⟨-, rfl⟩, body, taken, after, followed, read⟩ := read
  cases read
  obtain ⟨header, tail, begun, headed, sized⟩ := packetHeader_eq_ok headed
  obtain ⟨whole, rfl⟩ := split_after begun sized taken followed
  exact ⟨header ++ body, whole, header, rfl, headed⟩

theorem subpacket_eq_ok {input rest : Bytes} {item : Subpacket} (read : subpacket input = .ok (item, rest)) :
    ∃ part, input = part ++ rest ∧ SubpacketPart item part := by
  simp only [subpacket, bind_eq_ok, exists_unit, require_eq_ok, Prod.exists, checkedAdd_eq_ok, index_eq_ok] at read
  obtain ⟨length, used, spelled, -, _, ⟨-, rfl⟩, contents, taken, kindOctet, opened, -, body, tail, after, followed, read⟩ := read
  cases read
  obtain ⟨octets, _, begun, spelled, sized⟩ := newLength_eq_ok spelled
  obtain ⟨whole, rfl⟩ := split_after begun sized taken followed
  obtain ⟨contents, rfl⟩ := List.head?_eq_some_iff.mp (List.head?_eq_getElem?.trans opened)
  cases tail
  exact ⟨octets ++ kindOctet :: contents, whole, octets, kindOctet, rfl, spelled, rfl⟩

theorem size_bigEndianNat {first : UInt8} (nonzero : first ≠ 0) (rest : Bytes) :
    Nat.size (bigEndianNat (first :: rest)) = first.toNat.log2 + 1 + 8 * rest.length := by
  have positive : first.toNat ≠ 0 := fun zero => nonzero (UInt8.toNat_inj.mp zero)
  have powers : 256 ^ rest.length = 2 ^ (8 * rest.length) := by rw [Nat.pow_mul]
  have tail := bigEndianNat_lt rest
  have value := bigEndianNat_cons first rest
  have below := Nat.log2_self_le positive
  have above := Nat.lt_log2_self (n := first.toNat)
  apply Nat.le_antisymm
  · rw [Nat.size_le, value, Nat.pow_add, ← powers]
    calc first.toNat * 256 ^ rest.length + bigEndianNat rest
      _ < (first.toNat + 1) * 256 ^ rest.length := by rw [Nat.succ_mul]; omega
      _ ≤ 2 ^ (first.toNat.log2 + 1) * 256 ^ rest.length := Nat.mul_le_mul_right _ above
  · rw [Nat.add_right_comm, Nat.succ_le_iff, Nat.lt_size, value, Nat.pow_add, ← powers]
    exact Nat.le_trans (Nat.mul_le_mul_right _ below) (Nat.le_add_right _ _)

theorem beU16_eq_ok {bytes : Bytes} {value : Nat} (read : beU16 bytes = .ok value) : value < 2 ^ 16 ∧ bytes = bigEndian 2 value := by
  obtain ⟨taken, sized, rfl⟩ := map_eq_ok.mp read
  obtain ⟨two, rfl⟩ := array_eq_ok.mp sized
  refine ⟨?_, ?_⟩
  · have bound := bigEndianNat_lt bytes
    rwa [two] at bound
  · rw [← two, bigEndian_nat]

/-- A number after its bit length, in as many bytes as the bits need. -/
def encodeMpi (value : Bytes) : Bytes := bigEndian 2 (Nat.size (bigEndianNat value)) ++ value

/-- The first byte of the number is not zero, and the number of its bits can be written. -/
def IsMpi (value : Bytes) : Prop := value.length = (Nat.size (bigEndianNat value) + 7) / 8 ∧ 0 < Nat.size (bigEndianNat value) ∧
  Nat.size (bigEndianNat value) < 2 ^ 16

theorem mpi_eq_ok {input value rest : Bytes} (read : mpi input = .ok (value, rest)) : input = encodeMpi value ++ rest ∧ IsMpi value := by
  simp only [mpi, bind_eq_ok, exists_unit, require_eq_ok, checkedAdd_eq_ok, add_eq_ok, mul_eq_ok] at read
  obtain ⟨size, sized, bits, spelled, positive, _, ⟨-, rfl⟩, _, ⟨-, rfl⟩, number, taken, leading, opened, nonzero, _, ⟨-, rfl⟩, _, ⟨-, rfl⟩,
    exact, after, followed, read⟩ := read
  cases read
  obtain ⟨before, tail, begun, start, -, two⟩ := get_eq_ok.mp sized
  rw [eq_nil_of_length_eq_zero start, nil_append] at begun
  obtain ⟨whole, length⟩ := split_after begun two taken followed
  obtain ⟨small, rfl⟩ := beU16_eq_ok spelled
  obtain ⟨number, rfl⟩ := first_eq_ok.mp opened
  have total : Nat.size (bigEndianNat (leading :: number)) = bits := by
    have log : leading.toNat.log2 < 8 := (Nat.log2_lt fun zero => nonzero (UInt8.toNat_inj.mp zero)).mpr leading.toNat_lt
    rw [size_bigEndianNat nonzero]
    rw [leadingZeros, if_neg nonzero] at exact
    rw [length_cons] at length
    omega
  rw [encodeMpi, IsMpi, total]
  exact ⟨whole, length, Nat.pos_of_ne_zero positive, small⟩

/-- A signature packet as its fields, one after the other. -/
structure Layout (body : Bytes) (signature : BinarySignature) (hashed unhashed : Bytes) : Prop where
  partition : body = [4, 0, 1, 10] ++ bigEndian 2 hashed.length ++ hashed ++ bigEndian 2 unhashed.length ++ unhashed ++ signature.leftHash ++
    encodeMpi signature.rsaMpi
  hashedSize : hashed.length < 2 ^ 16
  unhashedSize : unhashed.length < 2 ^ 16
  leftHashSize : signature.leftHash.length = 2
  integer : IsMpi signature.rsaMpi
  header : signature.signedHeader = [4, 0, 1, 10] ++ bigEndian 2 hashed.length ++ hashed

theorem subpackets_partitioned {input : Bytes} {items : List Subpacket} (read : subpackets input = .ok items) :
    Partitioned SubpacketPart items input := chunks_partitioned subpacket_eq_ok read

theorem packets_partitioned {input : Bytes} {maximumCount maximumBody : Nat} {items : List Packet}
    (read : packets input maximumCount maximumBody = .ok items) : Partitioned PacketPart items input := chunks_partitioned packet_eq_ok read

theorem parseSignatureBody_layout {body : Bytes} {signature : BinarySignature} (read : parseSignatureBody body = .ok signature) :
    ∃ hashed unhashed hashedItems unhashedItems, Layout body signature hashed unhashed ∧
      subpackets hashed = .ok hashedItems ∧ subpackets unhashed = .ok unhashedItems := by
  simp only [parseSignatureBody, bind_eq_ok, exists_unit, require_eq_ok, Prod.exists, checkedAdd_eq_ok, add_eq_ok] at read
  obtain ⟨long, start, opened, fixed, high, first, low, second, _, ⟨-, rfl⟩, _, ⟨-, rfl⟩, sizeBytes, sized, unhashedSize, spelled, _, ⟨-, rfl⟩,
    _, ⟨-, rfl⟩, _, ⟨-, rfl⟩, digest, digested, leftHash, two, hashed, hashedTaken, hashedItems, hashedRead, unhashed, unhashedTaken,
    unhashedItems, unhashedRead, -, -, created, -, keyIds, -, fingerprints, -, tail, tailed, mpiBytes, remainder, integer, finished,
    signedHeader, covered, read⟩ := read
  cases read
  obtain ⟨rfl, isMpi⟩ := mpi_eq_ok integer
  obtain ⟨small, rfl⟩ := beU16_eq_ok spelled
  obtain ⟨twoBytes, rfl⟩ := array_eq_ok.mp two
  -- The ranges follow each other, so each one extends what is known of the end by itself.
  have atDigest := getFrom_of_get digested tailed
  have atUnhashed := getFrom_of_get unhashedTaken atDigest
  have atSize := getFrom_of_get sized atUnhashed
  have atHashed := getFrom_of_get hashedTaken atSize
  have atLow := getFrom_of_index second atHashed
  have atHigh := getFrom_of_index first atLow
  have whole := append_of_indexTo opened atHigh
  have header := append_of_indexTo covered atSize
  obtain ⟨-, -, -, -, -, hashedLength⟩ := get_eq_ok.mp hashedTaken
  obtain ⟨-, -, -, -, -, unhashedLength⟩ := get_eq_ok.mp unhashedTaken
  rw [Nat.add_sub_cancel_left] at hashedLength unhashedLength
  have spelled : [high, low] = bigEndian 2 hashed.length := by
    rw [hashedLength]
    exact (bigEndian_nat [high, low]).symm
  have front : signedHeader = [4, 0, 1, 10] ++ [high, low] ++ hashed := by
    apply append_cancel_right (header.trans (whole.symm.trans _))
    rw [fixed]
    simp
  refine ⟨hashed, unhashed, hashedItems, unhashedItems, ⟨?_, ?_, unhashedLength ▸ small, twoBytes, isMpi, ?_⟩, hashedRead, unhashedRead⟩
  · rw [← header, front, spelled, unhashedLength, finished]
    simp
  · have bound : bigEndianNat [high, low] < 256 ^ 2 := bigEndianNat_lt [high, low]
    omega
  · rw [front, spelled]

theorem parseBinarySignature_eq_ok {bytes : Bytes} {signature : BinarySignature} (read : parseBinarySignature bytes = .ok signature) :
    ∃ body, PacketPart ⟨2, body⟩ bytes ∧ parseSignatureBody body = .ok signature := by
  obtain ⟨items, split, parsed⟩ := bind_eq_ok.mp read
  obtain ⟨parts, rfl, framed⟩ := packets_partitioned split
  split at parsed
  next item =>
    simp only [bind_eq_ok, exists_unit, require_eq_ok] at parsed
    obtain ⟨tagged, parsed⟩ := parsed
    obtain ⟨tag, body⟩ := item
    cases tagged
    cases framed with
    | cons here none =>
      cases none
      exact ⟨body, by simpa using here, parsed⟩
  next => cases parsed

/-- Every byte read belongs to one packet, one subpacket or one field, and every number is written with the
fewest bits. -/
theorem parsing_accounts_for_every_byte (bytes : Bytes) :
    (∀ maximumCount maximumBody items, packets bytes maximumCount maximumBody = .ok items → Partitioned PacketPart items bytes) ∧
    (∀ items, subpackets bytes = .ok items → Partitioned SubpacketPart items bytes) ∧
    (∀ value rest, mpi bytes = .ok (value, rest) → bytes = encodeMpi value ++ rest ∧ IsMpi value) ∧
    ∀ signature, parseBinarySignature bytes = .ok signature →
      ∃ body hashed unhashed hashedItems unhashedItems, PacketPart ⟨2, body⟩ bytes ∧ Layout body signature hashed unhashed ∧
        subpackets hashed = .ok hashedItems ∧ Partitioned SubpacketPart hashedItems hashed ∧
        subpackets unhashed = .ok unhashedItems ∧ Partitioned SubpacketPart unhashedItems unhashed := by
  refine ⟨fun _ _ _ read => packets_partitioned read, fun _ read => subpackets_partitioned read, fun _ _ read => mpi_eq_ok read, ?_⟩
  intro signature read
  obtain ⟨body, framed, parsed⟩ := parseBinarySignature_eq_ok read
  obtain ⟨hashed, unhashed, hashedItems, unhashedItems, layout, first, second⟩ := parseSignatureBody_layout parsed
  exact ⟨body, hashed, unhashed, hashedItems, unhashedItems, framed, layout, first, subpackets_partitioned first, second,
    subpackets_partitioned second⟩

/-- A signature with one creation time among its hashed subpackets, one issuer among the others, and a one-bit number. -/
def sampleSignature : Bytes :=
  [0xC2, 29, 4, 0, 1, 10, 0, 6, 5, 2, 0, 0, 1, 0, 0, 10, 9, 16, 1, 2, 3, 4, 5, 6, 7, 8, 0xAB, 0xCD, 0, 1, 1]

def sampleFields : BinarySignature where
  created := 256
  issuerKeyIds := [[1, 2, 3, 4, 5, 6, 7, 8]]
  issuerFingerprints := []
  signedHeader := [4, 0, 1, 10, 0, 6, 5, 2, 0, 0, 1, 0]
  leftHash := [0xAB, 0xCD]
  rsaMpi := [1]

theorem parsing_accounts_for_every_byte_sample : parseBinarySignature sampleSignature = .ok sampleFields ∧
    ∃ body hashed unhashed, PacketPart ⟨2, body⟩ sampleSignature ∧ Layout body sampleFields hashed unhashed := by
  have read : parseBinarySignature sampleSignature = .ok sampleFields := by decide +kernel
  obtain ⟨body, hashed, unhashed, -, -, framed, layout, -⟩ := (parsing_accounts_for_every_byte sampleSignature).2.2.2 sampleFields read
  exact ⟨read, body, hashed, unhashed, framed, layout⟩

end Retonr.OpenPgp
