import Retonr.Lib.CountMap
import Retonr.Lib.Text

/-! The plain-text safety policy. Hard controls, bidi marks, and zero-width joiners
freeze a source. Other inventoried invisible marks may stay only as runs the
source already had: an edit may drop such a run, not add or lengthen one. -/

namespace Retonr.TextSafety
open Text

inductive TextSafetyFault where
  | hardAltered (offset : Nat)
  | hardIntroduced (offset : Nat)
  | invisibleIntroduced (offset : Nat)

/-- The control category: the C0 and C1 ranges and DEL. -/
def isControl (char : Char) : Bool := char.toNat ≤ 0x1F || (0x7F ≤ char.toNat && char.toNat ≤ 0x9F)

def isHardUnsafeTextCharacter (char : Char) : Bool :=
  let code := char.toNat
  (isControl char && !(char == '\n' || char == '\r' || char == '\t')) ||
    (code == 0x061C || (0x200B ≤ code && code ≤ 0x200F) || (0x2028 ≤ code && code ≤ 0x202E) ||
      (0x2060 ≤ code && code ≤ 0x206F) || code == 0xFEFF)

def isBidiMark (char : Char) : Bool :=
  let code := char.toNat
  code == 0x061C || code == 0x200E || code == 0x200F || (0x202A ≤ code && code ≤ 0x202E) || (0x2066 ≤ code && code ≤ 0x2069)

def isVariationSelector (char : Char) : Bool :=
  let code := char.toNat
  (0xFE00 ≤ code && code ≤ 0xFE0F) || (0xE0100 ≤ code && code ≤ 0xE01EF)

def isTagCharacter (char : Char) : Bool :=
  let code := char.toNat
  code == 0xE0001 || (0xE0020 ≤ code && code ≤ 0xE007F)

def isZeroWidthMark (char : Char) : Bool :=
  let code := char.toNat
  (0x200B ≤ code && code ≤ 0x200D) || code == 0x2060 || code == 0xFEFF || code == 0x180E

def isOtherInvisibleMark (char : Char) : Bool :=
  let code := char.toNat
  code == 0x00AD || code == 0x034F || code == 0x115F || code == 0x1160 || code == 0x17B4 || code == 0x17B5 ||
    (0x180B ≤ code && code ≤ 0x180D) || code == 0x2028 || code == 0x2029 || code == 0x202F ||
    (0x2061 ≤ code && code ≤ 0x2064) || (0x206A ≤ code && code ≤ 0x206F) || code == 0x3164 || code == 0xFFA0 ||
    (0xFFF9 ≤ code && code ≤ 0xFFFB)

def isRetainedInvisibleCharacter (char : Char) : Bool :=
  !isHardUnsafeTextCharacter char &&
    (isVariationSelector char || isZeroWidthMark char || isTagCharacter char || isOtherInvisibleMark char)

structure CarrierChar where
  character : Char
  offset : Nat

structure LocatedRun where
  base : Option Char
  carriers : List CarrierChar

namespace LocatedRun

def key (run : LocatedRun) : Option Char × Text := (run.base, run.carriers.map CarrierChar.character)

end LocatedRun

/-- The inner scanning loop: the carriers from here on and where they stop. -/
def takeCarriers : Nat → Text → List CarrierChar × Nat × Text
  | offset, [] => ([], offset, [])
  | offset, char :: rest =>
      if isRetainedInvisibleCharacter char then
        let (carriers, stop, remaining) := takeCarriers (offset + char.utf8Size) rest
        (⟨char, offset⟩ :: carriers, stop, remaining)
      else ([], offset, char :: rest)

def carrierRunsFrom : Nat → Nat → Text → List LocatedRun
  | 0, _, _ => []
  | _ + 1, _, [] => []
  | fuel + 1, offset, char :: rest =>
      if isRetainedInvisibleCharacter char then
        let (carriers, stop, remaining) := takeCarriers offset (char :: rest)
        ⟨none, carriers⟩ :: carrierRunsFrom fuel stop remaining
      else
        let (carriers, stop, remaining) := takeCarriers (offset + char.utf8Size) rest
        if carriers.isEmpty then carrierRunsFrom fuel stop remaining
        else ⟨some char, carriers⟩ :: carrierRunsFrom fuel stop remaining

/-- Each round of the scan consumes a character, so the length is enough fuel. -/
def carrierRuns (text : Text) : List LocatedRun := carrierRunsFrom text.length 0 text

/-- The length of the common start of two runs. -/
def sharedCarriers : List CarrierChar → List CarrierChar → Nat
  | left :: lefts, right :: rights => if left.character = right.character then sharedCarriers lefts rights + 1 else 0
  | _, _ => 0

def introducedOffset (run : LocatedRun) (sourceRuns : List LocatedRun) : Nat :=
  let shared := sourceRuns.foldl (fun longest source =>
    if source.base ≠ run.base then longest
    else
      let common := sharedCarriers source.carriers run.carriers
      if common < run.carriers.length then max longest common else longest) 0
  (run.carriers[shared]?.map CarrierChar.offset).getD 0

def introducedIn (sourceRuns : List LocatedRun) : CountMap (Option Char × Text) → List LocatedRun → Option Nat
  | _, [] => none
  | available, run :: runs =>
      match available.consume run.key with
      | some remaining => introducedIn sourceRuns remaining runs
      | none => some (introducedOffset run sourceRuns)

def firstIntroducedCarrier (source candidate : Text) : Option Nat :=
  introducedIn (carrierRuns source) (CountMap.tally ((carrierRuns source).map LocatedRun.key)) (carrierRuns candidate)

def firstHardOffsetFrom : Nat → Text → Option Nat
  | _, [] => none
  | offset, char :: rest =>
      if isHardUnsafeTextCharacter char then some offset else firstHardOffsetFrom (offset + char.utf8Size) rest

def firstHardOffset (text : Text) : Option Nat := firstHardOffsetFrom 0 text

/-- The first zipped pair that differs, or the byte length compared so far. -/
def zippedDifference : Nat → Text → Text → Nat ⊕ Nat
  | offset, left :: lefts, right :: rights =>
      if left ≠ right then .inl offset else zippedDifference (offset + left.utf8Size) lefts rights
  | offset, _, _ => .inr offset

def firstDifference (left right : Text) : Option Nat :=
  match zippedDifference 0 left right with
  | .inl offset => some offset
  | .inr offset =>
      if byteLen left = byteLen right then none else some (min (min offset (byteLen left)) (byteLen right))

def firstTextSafetyFault (source replacement : Text) : Option TextSafetyFault :=
  if source.any isHardUnsafeTextCharacter then (firstDifference source replacement).map .hardAltered
  else
    match firstHardOffset replacement with
    | some offset => some (.hardIntroduced offset)
    | none => (firstIntroducedCarrier source replacement).map .invisibleIntroduced

def replacementPreservesTextSafety (source replacement : Text) : Bool :=
  (firstTextSafetyFault source replacement).isNone

end Retonr.TextSafety
