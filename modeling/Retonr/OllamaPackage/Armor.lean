import Retonr.Lib.Text

/-! Strict ASCII armor around signature material: exact begin and end lines, full lines
of base64 between them, and for OpenPGP a header line and a checksum line. Every
refusal is the same, so an accepted text is simply one that yields bytes. -/

namespace Retonr.Armor

def armorLineBytes : Nat := 64

def newline : UInt8 := 0x0A

def equals : UInt8 := 0x3D

/-- The windows of the haystack that equal the needle, which is never empty. -/
def occurrences (haystack needle : Bytes) : Nat :=
  ((List.range (haystack.length + 1 - needle.length)).filter fun index => (haystack.drop index).take needle.length == needle).length

def strictInner (bytes opening closing : Bytes) : Option Bytes :=
  if ¬opening <+: bytes ∨ ¬closing <:+ bytes ∨ occurrences bytes opening ≠ 1 ∨ occurrences bytes closing ≠ 1 ∨ bytes.contains 0x0D ∨
      bytes.any fun byte => byte != newline && !(0x20 ≤ byte && byte ≤ 0x7E) then none
  else if bytes.length < closing.length then none
  else if bytes.length - closing.length < opening.length then none
  else some ((bytes.take (bytes.length - closing.length)).drop opening.length)

/-- The lines of the text, each of which ends in a newline. -/
def exactLines (inner : Bytes) : Option (List Bytes) :=
  let lines := inner.splitOn newline
  if lines.getLast? = some [] then some lines.dropLast else none

/-- The loop over the lines: all are full but the last, which is not empty. -/
def joinLines : Bytes → List Bytes → Option Bytes
  | encoded, [] => some encoded
  | encoded, line :: lines =>
      if line = [] ∨ armorLineBytes < line.length ∨ (lines ≠ [] ∧ line.length ≠ armorLineBytes) ∨
          usizeLimit ≤ encoded.length + line.length then none
      else joinLines (encoded ++ line) lines

def maximumEncoded (maximumDecoded : Nat) : Option Nat :=
  if usizeLimit ≤ maximumDecoded + 2 then none
  else if usizeLimit ≤ (maximumDecoded + 2) / 3 * 4 then none
  else some ((maximumDecoded + 2) / 3 * 4)

def canonicalBody (lines : List Bytes) (maximumDecoded : Nat) : Option Bytes := do
  let maximum ← maximumEncoded maximumDecoded
  let encoded ← joinLines [] lines
  if maximum < encoded.length then none else some encoded

def base64Value (byte : UInt8) : Option UInt8 :=
  if 65 ≤ byte ∧ byte ≤ 90 then some (byte - 65)
  else if 97 ≤ byte ∧ byte ≤ 122 then some (byte - 97 + 26)
  else if 48 ≤ byte ∧ byte ≤ 57 then some (byte - 48 + 52)
  else if byte = 43 then some 62
  else if byte = 47 then some 63
  else none

/-- The value of a symbol in a place where padding may stand. -/
def optionalValue (byte : UInt8) : Option UInt8 := if byte ≠ equals then base64Value byte else none

/-- The bytes of one group of four symbols. -/
def decodeChunk (finalChunk : Bool) (first second third fourth : UInt8) : Option Bytes := do
  let a ← base64Value first
  let b ← base64Value second
  let c := optionalValue third
  let d := optionalValue fourth
  if c.isNone ∧ (finalChunk = false ∨ fourth ≠ equals ∨ b &&& 0x0F ≠ 0) ∨
      c.isSome ∧ d.isNone ∧ (finalChunk = false ∨ (c.map (· &&& 0x03)) ≠ some 0) ∨ c.isNone ∧ d.isSome then none
  else
    some ((a <<< 2 ||| b >>> 4) ::
      match c, d with
      | some c, some d => [b <<< 4 ||| c >>> 2, c <<< 6 ||| d]
      | some c, none => [b <<< 4 ||| c >>> 2]
      | none, _ => [])

def decodeChunks (maximumDecoded : Nat) : Bytes → Bytes → Option Bytes
  | decoded, first :: second :: third :: fourth :: rest => do
      let chunk ← decodeChunk rest.isEmpty first second third fourth
      if maximumDecoded < (decoded ++ chunk).length then none
      else decodeChunks maximumDecoded (decoded ++ chunk) rest
  | decoded, _ => some decoded

def decodeBase64 (encoded : Bytes) (maximumDecoded : Nat) : Option Bytes :=
  if encoded = [] ∨ encoded.length % 4 ≠ 0 then none else decodeChunks maximumDecoded [] encoded

def crc24Step (crc : UInt32) : UInt32 :=
  let shifted := crc <<< 1
  if shifted &&& 0x01000000 ≠ 0 then shifted ^^^ 0x01864CFB else shifted

def crc24Byte (crc : UInt32) (byte : UInt8) : UInt32 :=
  (List.range 8).foldl (fun crc _ => crc24Step crc) (crc ^^^ (byte.toUInt32 <<< 16))

def crc24 (bytes : Bytes) : Bytes :=
  let crc := bytes.foldl crc24Byte 0x00B704CE
  [(crc >>> 16).toUInt8, (crc >>> 8).toUInt8, crc.toUInt8]

/-- The lines behind the optional header and the empty line that must follow it. -/
def bodyLines (expectedHeader : Option Bytes) (lines : List Bytes) : Option (List Bytes) :=
  match expectedHeader with
  | some header => if lines[0]? ≠ some header ∨ lines[1]? ≠ some [] then none else some (lines.drop 2)
  | none => if lines[0]? ≠ some [] then none else some (lines.drop 1)

/-- The base64 payload of an OpenPGP text and the symbols of its checksum. -/
def openpgpPayload (bytes opening closing : Bytes) (expectedHeader : Option Bytes) (maximumDecoded : Nat) : Option (Bytes × Bytes) := do
  let inner ← strictInner bytes opening closing
  let lines ← bodyLines expectedHeader (← exactLines inner)
  let crcLine ← lines.getLast?
  let crcText ← if crcLine.head? = some equals then some crcLine.tail else none
  if crcText.length ≠ 4 ∨ lines.dropLast = [] then none
  else
    let encoded ← canonicalBody lines.dropLast maximumDecoded
    some (encoded, crcText)

def decodeOpenpgp (bytes opening closing : Bytes) (expectedHeader : Option Bytes) (maximumDecoded : Nat) : Option Bytes := do
  let (encoded, crcText) ← openpgpPayload bytes opening closing expectedHeader maximumDecoded
  let decoded ← decodeBase64 encoded maximumDecoded
  let crc ← decodeBase64 crcText 3
  if crc.length ≠ 3 ∨ crc ≠ crc24 decoded then none else some decoded

/-- The base64 payload of a PEM text. -/
def pemPayload (bytes opening closing : Bytes) (maximumDecoded : Nat) : Option Bytes := do
  let inner ← strictInner bytes opening closing
  let lines ← exactLines inner
  if lines = [] ∨ [] ∈ lines then none else canonicalBody lines maximumDecoded

def decodePem (bytes opening closing : Bytes) (maximumDecoded : Nat) : Option Bytes := do
  decodeBase64 (← pemPayload bytes opening closing maximumDecoded) maximumDecoded

example : crc24 [49, 50, 51, 52, 53, 54, 55, 56, 57] = [0x21, 0xCF, 0x02] := by decide +kernel

end Retonr.Armor
