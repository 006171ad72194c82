import Retonr.Adapter.TextAdapter

/-! The inventory taken of a buffer before any model sees it: its encoding, its byte
order mark, and how many characters of each invisible or control class it has. -/

namespace Retonr
open Text TextSafety

inductive TextEncoding where
  | utf8
  | utf16Le
  | utf16Be
  | invalidUtf8

inductive CarrierPresence where
  | absent
  | possible
  | notDecoded

inductive ControlClass where
  | c0
  | c1
  | bidi
  | variationSelector
  | zeroWidth
  | tag
  | otherFormat

structure ControlCounts where
  c0 : Nat := 0
  c1 : Nat := 0
  bidi : Nat := 0
  variationSelectors : Nat := 0
  zeroWidth : Nat := 0
  tag : Nat := 0
  otherFormat : Nat := 0

structure PlainTextInventory where
  encoding : TextEncoding
  validUpTo : Option Nat
  utf8Bom : Bool
  byteSize : Nat
  digest : Digest
  lineEndings : Option LineEndingKind
  finalNewline : Option Bool
  controls : ControlCounts
  c2paUnstructuredText : CarrierPresence

/-- The first class that claims the character, in the order in which they are asked. -/
def controlClass (char : Char) : Option ControlClass :=
  if char = '\t' ∨ char = '\n' ∨ char = '\r' then none
  else if isBidiMark char then some .bidi
  else if isVariationSelector char then some .variationSelector
  else if isZeroWidthMark char then some .zeroWidth
  else if 0x80 ≤ char.toNat ∧ char.toNat ≤ 0x9F then some .c1
  else if isControl char ∨ char = '\x7f' then some .c0
  else if isTagCharacter char then some .tag
  else if isOtherInvisibleMark char then some .otherFormat
  else none

namespace ControlCounts

def increment (counts : ControlCounts) : ControlClass → ControlCounts
  | .c0 => { counts with c0 := counts.c0 + 1 }
  | .c1 => { counts with c1 := counts.c1 + 1 }
  | .bidi => { counts with bidi := counts.bidi + 1 }
  | .variationSelector => { counts with variationSelectors := counts.variationSelectors + 1 }
  | .zeroWidth => { counts with zeroWidth := counts.zeroWidth + 1 }
  | .tag => { counts with tag := counts.tag + 1 }
  | .otherFormat => { counts with otherFormat := counts.otherFormat + 1 }

def total (counts : ControlCounts) : Nat :=
  counts.c0 + counts.c1 + counts.bidi + counts.variationSelectors + counts.zeroWidth + counts.tag + counts.otherFormat

end ControlCounts

def countControls (text : Text) : ControlCounts :=
  text.foldl (fun counts char => (controlClass char).elim counts counts.increment) {}

namespace TextAdapter

def undecoded (encoding : TextEncoding) (utf8Bom : Bool) (byteSize : Nat) (digest : Digest) : PlainTextInventory where
  encoding := encoding
  validUpTo := none
  utf8Bom := utf8Bom
  byteSize := byteSize
  digest := digest
  lineEndings := none
  finalNewline := none
  controls := {}
  c2paUnstructuredText := .notDecoded

def inventory (input : Bytes) : Except TextAdapterError PlainTextInventory :=
  if maxPlainTextBytes < input.length then .error (.inputTooLarge input.length maxPlainTextBytes)
  else
    let digest := Digest.sha256 input
    let byteSize := input.length
    if utf16LeBom.isPrefixOf input then .ok (undecoded .utf16Le false byteSize digest)
    else if utf16BeBom.isPrefixOf input then .ok (undecoded .utf16Be false byteSize digest)
    else
      let marked := utf8Bom.isPrefixOf input
      let bodyOffset := if marked then utf8Bom.length else 0
      match decode (input.drop bodyOffset) with
      | .error validUpTo =>
          .ok { undecoded .invalidUtf8 marked byteSize digest with validUpTo := some (bodyOffset + validUpTo) }
      | .ok text =>
          let described := metadata input text marked
          let controls := countControls text
          .ok
            { encoding := .utf8
              validUpTo := none
              utf8Bom := marked
              byteSize
              digest
              lineEndings := some described.lineEndings
              finalNewline := some described.hasFinalNewline
              controls
              c2paUnstructuredText := if marked ∧ 0 < controls.variationSelectors then .possible else .absent }

end TextAdapter

end Retonr
