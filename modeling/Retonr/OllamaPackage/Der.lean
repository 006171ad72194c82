import Retonr.Lib.Slice

/-! The reader of RSA public keys in DER: nested elements with their lengths, and the two integers. -/

namespace Retonr.PublicKey
open Slice Retonr.Except

def rsaEncryptionIdentifier : Bytes := [0x06, 0x09, 0x2a, 0x86, 0x48, 0x86, 0xf7, 0x0d, 0x01, 0x01, 0x01, 0x05, 0x00]

structure RsaKey where
  (modulus exponent : Bytes)

/-- One length byte says what a short length would have said. -/
def shortByte (width : Nat) (bytes : Bytes) : Reading Bool := if width = 1 then (index bytes 0).map (decide <| · < 0x80) else .ok false

/-- The length that is spelled at the start, and the number of bytes that spell it. -/
def derLength (input : Bytes) : Reading (Nat × Nat) := do
  let first ← first input
  if first < 0x80 then .ok (first.toNat, 1)
  else do
    let width := (first &&& 0x7f).toNat
    require (¬(width = 0 ∨ 4 < width)) .refused
    let stop ← add 1 width
    let bytes ← get input 1 stop
    require (bytes.head? ≠ some 0) .refused
    let short ← shortByte width bytes
    require (short = false) .refused
    let length ← bytes.foldlM shiftIn 0
    let used ← add width 1
    .ok (length, used)

structure DerReader where
  remaining : Bytes

namespace DerReader

def element (reader : DerReader) (expectedTag : UInt8) : Reading (Bytes × DerReader) := do
  require (reader.remaining.head? = some expectedTag) .refused
  let tail ← getFrom reader.remaining 1
  let (length, lengthBytes) ← derLength tail
  let header ← checkedAdd 1 lengthBytes
  let stop ← checkedAdd header length
  let contents ← get reader.remaining header stop
  let rest ← getFrom reader.remaining stop
  .ok (contents, ⟨rest⟩)

def finish (reader : DerReader) : Reading Unit := require (reader.remaining = []) .refused

def sequence (input : Bytes) : Reading DerReader := do
  let (contents, reader) ← element ⟨input⟩ 0x30
  reader.finish
  .ok ⟨contents⟩

end DerReader

def positiveInteger (bytes : Bytes) : Reading Bytes := do
  require (bytes ≠ []) .refused
  let first ← index bytes 0
  require (first &&& 0x80 = 0) .refused
  if first = 0 then do
    require (2 ≤ bytes.length) .refused
    let second ← index bytes 1
    require (second &&& 0x80 ≠ 0) .refused
    indexFrom bytes 1
  else .ok bytes

def parseSpki (input : Bytes) : Reading RsaKey := do
  let outer ← DerReader.sequence input
  let (algorithm, outer) ← outer.element 0x30
  require (algorithm = rsaEncryptionIdentifier) .refused
  let (bitString, outer) ← outer.element 0x03
  outer.finish
  require (bitString.head? = some 0) .refused
  let key ← getFrom bitString 1
  let rsa ← DerReader.sequence key
  let (first, rsa) ← rsa.element 0x02
  let modulus ← positiveInteger first
  let (second, rsa) ← rsa.element 0x02
  let exponent ← positiveInteger second
  rsa.finish
  require (256 ≤ modulus.length ∧ modulus.length ≤ 1024 ∧ exponent = [0x01, 0x00, 0x01]) .refused
  .ok ⟨modulus, exponent⟩

end Retonr.PublicKey
