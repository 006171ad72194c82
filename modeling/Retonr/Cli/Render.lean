import Retonr.Lib.JsonValue
import Retonr.Types.TextSafety

/-! Structured reports for a terminal: pretty JSON in which characters that affect the terminal are
escaped inside strings. -/

namespace Retonr.Render
open Text

def mustEscapeForTerminal (char : Char) : Bool :=
  if char = '\n' then false
  else if TextSafety.isControl char then true
  else
    let code := char.toNat
    code == 0x00AD || code == 0x034F || code == 0x061C || code == 0x115F || code == 0x1160 || code == 0x17B4 || code == 0x17B5 ||
      (0x180B ≤ code && code ≤ 0x180E) || (0x200B ≤ code && code ≤ 0x200F) || (0x2028 ≤ code && code ≤ 0x202F) ||
      (0x2060 ≤ code && code ≤ 0x206F) || code == 0x3164 || (0xFE00 ≤ code && code ≤ 0xFE0F) || code == 0xFEFF || code == 0xFFA0 ||
      (0xFFF9 ≤ code && code ≤ 0xFFFB) || code == 0xE0001 || (0xE0020 ≤ code && code ≤ 0xE007F) || (0xE0100 ≤ code && code ≤ 0xE01EF)

def encodeUtf16 (char : Char) : List Nat :=
  if char.toNat < 0x10000 then [char.toNat]
  else [0xD800 + (char.toNat - 0x10000) / 0x400, 0xDC00 + (char.toNat - 0x10000) % 0x400]

/-- A backslash and the four hexadecimal digits of a code unit. -/
def unitEscape (unit : Nat) : Text :=
  ['\\', 'u', Json.hexDigit (unit / 0x1000), Json.hexDigit (unit / 0x100 % 0x10), Json.hexDigit (unit / 0x10 % 0x10), Json.hexDigit (unit % 0x10)]

def appendJsonUnicodeEscape (output : Text) (char : Char) : Text := (encodeUtf16 char).foldl (fun output unit => output ++ unitEscape unit) output

structure Escaper where
  escapedOutput : Text
  (inString escapedInput : Bool)

namespace Escaper

def step (escaper : Escaper) (char : Char) : Escaper :=
  if !escaper.inString then { escaper with escapedOutput := escaper.escapedOutput ++ [char], inString := char == '\x22' }
  else if escaper.escapedInput then { escaper with escapedOutput := escaper.escapedOutput ++ [char], escapedInput := false }
  else if char = '\\' then { escaper with escapedOutput := escaper.escapedOutput ++ [char], escapedInput := true }
  else if char = '\x22' then { escaper with escapedOutput := escaper.escapedOutput ++ [char], inString := false }
  else if mustEscapeForTerminal char then { escaper with escapedOutput := appendJsonUnicodeEscape escaper.escapedOutput char }
  else { escaper with escapedOutput := escaper.escapedOutput ++ [char] }

end Escaper

def escapeJsonForDisplay (value : Text) : Text := (value.foldl Escaper.step ⟨[], false, false⟩).escapedOutput

/-- The white space that pretty JSON uses. -/
def isLayout (char : Char) : Bool := char == ' ' || char == '\n'

/-- A printer of reports whose texts are JSON, laid out with blanks and line feeds alone. -/
structure PrettyPrinter (Report Fault : Type) where
  toStringPretty : Report → Except Fault Text
  prints : ∀ {report : Report} {encoded : Text}, toStringPretty report = .ok encoded → ∃ value, Json.Denotes isLayout encoded value

variable {Report Fault : Type}

def toSafePrettyJson (printer : PrettyPrinter Report Fault) (report : Report) : Except Fault Bytes :=
  (printer.toStringPretty report).map fun encoded => encode (escapeJsonForDisplay encoded)

end Retonr.Render
