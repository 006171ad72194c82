import Retonr.Lib.PartitionPoint
import Retonr.Types.Validation

/-! What the editorial rules look up in a text: whether a range lies inside a quotation, and the line
and column of a position. Both are searched for in a list that is prepared once. -/

namespace Retonr
open Text

/-- The characters with the offsets they begin at, the first of them at the given one. -/
def charIndices : Nat → Text → List (Nat × Char)
  | _, [] => []
  | offset, char :: rest => (offset, char) :: charIndices (offset + char.utf8Size) rest

structure ByteRange where
  (start stop : Nat)

/-- The quotations found so far, and where the open ones of either style begin. -/
structure QuoteScan where
  spans : List ByteRange
  (inAscii inCurly : Option Nat)

namespace QuoteScan

def step (scan : QuoteScan) (entry : Nat × Char) : QuoteScan :=
  let (index, char) := entry
  if char = '\x22' then
    match scan.inAscii with
    | some start => { scan with spans := scan.spans ++ [⟨start, index + char.utf8Size⟩], inAscii := none }
    | none => { scan with inAscii := some index }
  else if char = '“' then { scan with inCurly := some index }
  else if char = '”' then
    match scan.inCurly with
    | some start => { scan with spans := scan.spans ++ [⟨start, index + char.utf8Size⟩], inCurly := none }
    | none => scan
  else scan

end QuoteScan

/-- The quotations of a text as they are found, each closed by the mark of its own style. -/
def pairedQuotes (text : Text) : List ByteRange := ((charIndices 0 text).foldl QuoteScan.step ⟨[], none, none⟩).spans

/-- Every span reaches as far as any before it. -/
def extendEnds : Nat → List ByteRange → List ByteRange
  | _, [] => []
  | maximumEnd, span :: spans => ⟨span.start, max maximumEnd span.stop⟩ :: extendEnds (max maximumEnd span.stop) spans

def quotedSpans (text : Text) : List ByteRange :=
  extendEnds 0 ((pairedQuotes text).mergeSort fun span other => decide (span.start ≤ other.start))

def isInsideQuotes (start stop : Nat) (quotes : List ByteRange) : Bool :=
  let index := partitionPoint (fun span => decide (span.start ≤ start)) quotes
  decide (0 < index) && quotes[index - 1]?.any fun span => decide (stop ≤ span.stop)

/-- The offsets at which the lines of a text begin. -/
structure LineIndex where
  starts : List Nat

namespace LineIndex

def new (text : Text) : LineIndex where
  starts := 0 :: (encode text).zipIdx.filterMap fun (byte, offset) => if byte = 0x0A then some (min (offset + 1) (usizeLimit - 1)) else none

/-- The number after a zero-based one, if both fit in 32 bits. -/
def oneBased (value : Nat) : Option Nat := if value + 1 < u32Limit then some (value + 1) else none

def point (lines : LineIndex) (byteIndex : Nat) : Option TextPoint := do
  let position := partitionPoint (fun start => decide (start ≤ byteIndex)) lines.starts
  let lineIndex ← if 1 ≤ position then some (position - 1) else none
  let lineStart ← lines.starts[lineIndex]?
  let columnOffset ← if lineStart ≤ byteIndex then some (byteIndex - lineStart) else none
  let line ← oneBased lineIndex
  let column ← oneBased columnOffset
  some ⟨line, column⟩

end LineIndex

end Retonr
