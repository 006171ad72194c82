import Retonr.Lib.Slice

/-! The reader of OpenPGP packets: certificates with one RSA key, and binary signatures with their
subpackets and one multiprecision integer. SHA-1 is a parameter of the certificate reader. -/

namespace Retonr.OpenPgp
open Slice Framing Retonr.Except

def maximumSignaturePacketBytes : Nat := 16 * 1024

def maximumSubpackets : Nat := 64

structure BinarySignature where
  created : Nat
  (issuerKeyIds issuerFingerprints : List Bytes)
  (signedHeader leftHash rsaMpi : Bytes)
  deriving DecidableEq

structure Packet where
  tag : UInt8
  body : Bytes

structure Subpacket where
  kind : UInt8
  body : Bytes

def beUsize (bytes : Bytes) : Reading Nat := do
  require (¬(bytes = [] ∨ 4 < bytes.length)) .refused
  bytes.foldlM shiftIn 0

/-- A two-byte number in network order. -/
def beU16 (bytes : Bytes) : Reading Nat := (array 2 bytes).map bigEndianNat

/-- A length of the new format and the number of bytes that spell it. Partial lengths are refused. -/
def newLength (input : Bytes) : Reading (Nat × Nat) := do
  let value ← first input
  if value ≤ 191 then .ok (value.toNat, 1)
  else if value ≤ 223 then do
    let high ← mul (value - 192).toNat 256
    let low ← getAt input 1
    let sum ← add high low.toNat
    let length ← add sum 192
    .ok (length, 2)
  else if value = 255 then do
    let bytes ← get input 1 5
    let length ← beUsize bytes
    .ok (length, 5)
  else .error .refused

/-- The number of length bytes in a header of the old format. An open length is refused. -/
def oldWidth (first : UInt8) : Reading Nat :=
  if first &&& 0x03 = 0 then .ok 1
  else if first &&& 0x03 = 1 then .ok 2
  else if first &&& 0x03 = 2 then .ok 4
  else .error .refused

/-- The tag of a packet, the length of its body and that of its header. -/
def packetHeader (input : Bytes) : Reading (UInt8 × Nat × Nat) := do
  let first ← index input 0
  require (first &&& 0x80 ≠ 0) .refused
  if first &&& 0x40 ≠ 0 then do
    let tail ← getFrom input 1
    let (length, used) ← newLength tail
    let headerLength ← add used 1
    .ok (first &&& 0x3f, length, headerLength)
  else do
    let width ← oldWidth first
    let stop ← add 1 width
    let bytes ← get input 1 stop
    let length ← beUsize bytes
    let headerLength ← add width 1
    .ok ((first >>> 2) &&& 0x0f, length, headerLength)

/-- One round of the loop over packets. -/
def packet (maximumBody : Nat) (input : Bytes) : Reading (Packet × Bytes) := do
  let (tag, length, headerLength) ← packetHeader input
  require (length ≤ maximumBody) .refused
  let stop ← checkedAdd headerLength length
  let body ← get input headerLength stop
  let rest ← getFrom input stop
  .ok (⟨tag, body⟩, rest)

def packets (bytes : Bytes) (maximumCount maximumBody : Nat) : Reading (List Packet) := chunks (packet maximumBody) maximumCount bytes

/-- One round of the loop over subpackets. A critical one is refused unless its kind is understood. -/
def subpacket (input : Bytes) : Reading (Subpacket × Bytes) := do
  let (length, lengthBytes) ← newLength input
  require (¬(length = 0 ∨ maximumSignaturePacketBytes < length)) .refused
  let stop ← checkedAdd lengthBytes length
  let packet ← get input lengthBytes stop
  let kindOctet ← index packet 0
  let kind := kindOctet &&& 0x7f
  require (¬(kindOctet &&& 0x80 ≠ 0 ∧ ¬(kind = 2 ∨ kind = 16 ∨ kind = 33))) .refused
  let body ← indexFrom packet 1
  let rest ← getFrom input stop
  .ok (⟨kind, body⟩, rest)

def subpackets (input : Bytes) : Reading (List Subpacket) := chunks subpacket maximumSubpackets input

def leadingZeros (byte : UInt8) : Nat := if byte = 0 then 8 else 7 - byte.toNat.log2

/-- A multiprecision integer at the start, and what follows it. -/
def mpi (input : Bytes) : Reading (Bytes × Bytes) := do
  let size ← get input 0 2
  let bitLength ← beU16 size
  require (bitLength ≠ 0) .refused
  let rounded ← checkedAdd bitLength 7
  let byteLength := rounded / 8
  let stop ← add 2 byteLength
  let value ← get input 2 stop
  let leading ← first value
  require (leading ≠ 0) .refused
  let counted ← add (leadingZeros leading) bitLength
  let bits ← mul byteLength 8
  require (counted = bits) .refused
  let rest ← getFrom input stop
  .ok (value, rest)

/-- The bodies of the subpackets of one kind. -/
def bodiesOf (kind : UInt8) (subpackets : List Subpacket) : List Bytes := (subpackets.filter (·.kind = kind)).map (·.body)

/-- A version 4 fingerprint in the body of its subpacket. -/
def issuerFingerprint (body : Bytes) : Reading Bytes := do
  require (¬(body.head? ≠ some 4 ∨ body.length ≠ 21)) .refused
  let fingerprint ← indexFrom body 1
  array 20 fingerprint

def parseSignatureBody (body : Bytes) : Reading BinarySignature := do
  require (12 ≤ body.length) .refused
  let start ← indexTo body 4
  require (start = [4, 0, 1, 10]) .refused
  let high ← index body 4
  let low ← index body 5
  let hashedLength := bigEndianNat [high, low]
  let hashedEnd ← checkedAdd 6 hashedLength
  let lengthEnd ← checkedAdd hashedEnd 2
  let unhashedLengthBytes ← get body hashedEnd lengthEnd
  let unhashedLength ← beU16 unhashedLengthBytes
  let unhashedStart ← add hashedEnd 2
  let unhashedEnd ← checkedAdd unhashedStart unhashedLength
  let leftHashEnd ← checkedAdd unhashedEnd 2
  let digest ← get body unhashedEnd leftHashEnd
  let leftHash ← array 2 digest
  let hashedArea ← get body 6 hashedEnd
  let hashed ← subpackets hashedArea
  let unhashedArea ← get body unhashedStart unhashedEnd
  let unhashed ← subpackets unhashedArea
  let creations := bodiesOf 2 hashed
  require (creations.length = 1) .refused
  -- The first of them is looked at only where there is exactly one.
  let creation := creations.headD []
  require (¬(creation.length ≠ 4 ∨ (unhashed.any (·.kind = 2)))) .refused
  let created ← (array 4 creation).map bigEndianNat
  let issuerKeyIds ← (bodiesOf 16 (hashed ++ unhashed)).mapM (array 8)
  let issuerFingerprints ← (bodiesOf 33 (hashed ++ unhashed)).mapM issuerFingerprint
  let tail ← getFrom body leftHashEnd
  let (rsaMpi, remainder) ← mpi tail
  require (remainder = []) .refused
  let signedHeader ← indexTo body hashedEnd
  .ok { created, issuerKeyIds, issuerFingerprints, signedHeader, leftHash, rsaMpi }

def parseBinarySignature (bytes : Bytes) : Reading BinarySignature := do
  let packets ← packets bytes 1 maximumSignaturePacketBytes
  match packets with
  | [packet] => do
      require (packet.tag = 2) .refused
      parseSignatureBody packet.body
  | _ => .error .refused

end Retonr.OpenPgp
