import Retonr.Lib.Json

/-! JSON texts as sequences of lexemes. What a scanner has to do is stated by the spellings of a
sequence, with every legal escape in a string; a scanner is taken as a parameter that does it, and a
strict one shows that there are such scanners. -/

namespace Retonr.Json
open Text List

inductive Mark where
  | openBrace
  | closeBrace
  | openBracket
  | closeBracket
  | colon
  | comma
  deriving DecidableEq

def Mark.char : Mark → Char
  | openBrace => '\x7b'
  | closeBrace => '\x7d'
  | openBracket => '['
  | closeBracket => ']'
  | colon => ':'
  | comma => ','

inductive Lexeme where
  | mark (mark : Mark)
  | string (value : Text)
  | natural (value : Nat)
  /-- A literal, or a number that is not spelled as a natural one. -/
  | other
  /-- The place where the text stops being JSON. -/
  | invalid
  deriving DecidableEq

def isBlank (char : Char) : Bool := char == ' ' || char == '\n' || char == '\r' || char == '\t'

def shortEscape (letter : Char) : Option Char :=
  match letter with
  | '\x22' => some '\x22'
  | '\\' => some '\\'
  | '/' => some '/'
  | 'b' => some '\x08'
  | 'f' => some '\x0c'
  | 'n' => some '\n'
  | 'r' => some '\r'
  | 't' => some '\t'
  | _ => none

def hexValue (char : Char) : Option Nat :=
  if '0' ≤ char ∧ char ≤ '9' then some (char.toNat - 48)
  else if 'a' ≤ char ∧ char ≤ 'f' then some (char.toNat - 87)
  else if 'A' ≤ char ∧ char ≤ 'F' then some (char.toNat - 55)
  else none

def codeUnit (first second third fourth : Char) : Option Nat := do
  let first ← hexValue first
  let second ← hexValue second
  let third ← hexValue third
  let fourth ← hexValue fourth
  some (((first * 16 + second) * 16 + third) * 16 + fourth)

/-- The body of a string spells a text, with any of the escapes that are allowed for a character. -/
inductive Escapes : Text → Text → Prop where
  | nil : Escapes [] []
  | plain {char : Char} {body value : Text} (visible : 0x20 ≤ char.toNat) (unquoted : char ≠ '\x22') (unescaped : char ≠ '\\')
      (rest : Escapes body value) : Escapes (char :: body) (char :: value)
  | short {letter char : Char} {body value : Text} (known : shortEscape letter = some char) (rest : Escapes body value) :
      Escapes ('\\' :: letter :: body) (char :: value)
  | unit {a b c d char : Char} {body value : Text} (spelled : codeUnit a b c d = some char.toNat) (rest : Escapes body value) :
      Escapes ('\\' :: 'u' :: a :: b :: c :: d :: body) (char :: value)
  | pair {a b c d e f g h char : Char} {body value : Text} (wide : 0x10000 ≤ char.toNat)
      (high : codeUnit a b c d = some (0xD800 + (char.toNat - 0x10000) / 0x400))
      (low : codeUnit e f g h = some (0xDC00 + (char.toNat - 0x10000) % 0x400)) (rest : Escapes body value) :
      Escapes ('\\' :: 'u' :: a :: b :: c :: d :: '\\' :: 'u' :: e :: f :: g :: h :: body) (char :: value)

def continuesNumber (char : Char) : Bool := char.isDigit || char == '.' || char == 'e' || char == 'E'

/-- A text spells a sequence of lexemes, with white space between them. -/
inductive Spells : Text → List Lexeme → Prop where
  | nil : Spells [] []
  | blank {char : Char} {text : Text} {lexemes : List Lexeme} (blank : isBlank char = true) (rest : Spells text lexemes) :
      Spells (char :: text) lexemes
  | mark {text : Text} {lexemes : List Lexeme} (mark : Mark) (rest : Spells text lexemes) :
      Spells (mark.char :: text) (.mark mark :: lexemes)
  | string {body value text : Text} {lexemes : List Lexeme} (spelled : Escapes body value) (rest : Spells text lexemes) :
      Spells ('\x22' :: (body ++ '\x22' :: text)) (.string value :: lexemes)
  | natural {text : Text} {lexemes : List Lexeme} (value : Nat) (ended : ∀ char ∈ text.head?, continuesNumber char = false)
      (rest : Spells text lexemes) : Spells (number value ++ text) (.natural value :: lexemes)

def quoted (body : Text) : Text := '\x22' :: (body ++ ['\x22'])

variable {body value text : Text}

theorem Spells.quoted {lexemes : List Lexeme} (spelled : Escapes body value) (rest : Spells text lexemes) :
    Spells (quoted body ++ text) (.string value :: lexemes) := by
  rw [Json.quoted, cons_append, append_assoc]
  exact .string spelled rest

theorem ended_mark (mark : Mark) (text : Text) : ∀ char ∈ (mark.char :: text).head?, continuesNumber char = false := by
  rintro char ⟨⟩
  cases mark <;> rfl

/-- A text without a character that needs an escape spells itself. -/
theorem Escapes.self (plain : ∀ char ∈ text, 0x20 ≤ char.toNat ∧ char ≠ '\x22' ∧ char ≠ '\\') : Escapes text text := by
  induction text with
  | nil => exact .nil
  | cons char text ih =>
    obtain ⟨⟨visible, unquoted, unescaped⟩, others⟩ := forall_mem_cons.mp plain
    exact .plain visible unquoted unescaped (ih others)

/-- A scanner that reads every spelling as the lexemes it spells. -/
structure Scanner where
  scan : Text → List Lexeme
  conforms : ∀ {text : Text} {lexemes : List Lexeme}, Spells text lexemes → scan text = lexemes

variable {char : Char}

theorem utf8Size_of_hexValue {value : Nat} (known : hexValue char = some value) : char.utf8Size = 1 := by
  rw [Char.utf8Size_eq_one_iff]
  unfold hexValue at known
  split at known
  next range => exact UInt32.le_trans range.2 (by decide)
  split at known
  next range => exact UInt32.le_trans range.2 (by decide)
  split at known
  next range => exact UInt32.le_trans range.2 (by decide)
  next => cases known

variable {a b c d : Char}

theorem byteLen_codeUnit {value : Nat} (known : codeUnit a b c d = some value) : byteLen [a, b, c, d] = 4 := by
  simp only [codeUnit, Option.bind_eq_bind, Option.bind_eq_some_iff] at known
  obtain ⟨_, first, _, second, _, third, _, fourth, -⟩ := known
  simp only [byteLen_cons, byteLen_nil, utf8Size_of_hexValue first, utf8Size_of_hexValue second, utf8Size_of_hexValue third,
    utf8Size_of_hexValue fourth]

theorem utf8Size_of_shortEscape {letter : Char} (known : shortEscape letter = some char) : letter.utf8Size = 1 := by
  unfold shortEscape at known
  split at known
  all_goals first | rfl | cases known

/-- A string takes at most six bytes for each byte it spells, however it is escaped. -/
theorem Escapes.byteLen_le (spelled : Escapes body value) : byteLen body ≤ 6 * byteLen value := by
  have slash : '\\'.utf8Size = 1 := by decide
  have letter : 'u'.utf8Size = 1 := by decide
  induction spelled with
  | nil => simp
  | plain _ _ _ _ ih =>
    simp only [byteLen_cons]
    omega
  | @short _ char _ _ known _ ih =>
    have positive := char.utf8Size_pos
    simp only [byteLen_cons, slash, utf8Size_of_shortEscape known]
    omega
  | @unit _ _ _ _ char _ _ known _ ih =>
    have positive := char.utf8Size_pos
    have digits := byteLen_codeUnit known
    simp only [byteLen_cons, byteLen_nil, slash, letter] at digits ⊢
    omega
  | @pair _ _ _ _ _ _ _ _ char _ _ wide high low _ ih =>
    have large : 2 ≤ char.utf8Size := by
      by_contra small
      have narrow := Char.utf8Size_eq_one_iff.mp (Nat.le_antisymm (by omega) char.utf8Size_pos)
      have bound : char.toNat ≤ 127 := narrow
      omega
    have first := byteLen_codeUnit high
    have second := byteLen_codeUnit low
    simp only [byteLen_cons, byteLen_nil, slash, letter] at first second ⊢
    omega

def unescape : Text → Option (Char × Text)
  | 'u' :: a :: b :: c :: d :: rest => do
      let unit ← codeUnit a b c d
      if 0xD800 ≤ unit ∧ unit < 0xDC00 then
        match rest with
        | '\\' :: 'u' :: e :: f :: g :: h :: rest => do
            let low ← codeUnit e f g h
            if 0xDC00 ≤ low ∧ low < 0xE000 then some (Char.ofNat (0x10000 + (unit - 0xD800) * 0x400 + (low - 0xDC00)), rest) else none
        | _ => none
      else if 0xDC00 ≤ unit ∧ unit < 0xE000 then none
      else some (Char.ofNat unit, rest)
  | letter :: rest => (shortEscape letter).map (·, rest)
  | [] => none

def scanString : Nat → Text → Option (Text × Text)
  | 0, _ | _, [] => none
  | fuel + 1, char :: rest =>
      if char = '\x22' then some ([], rest)
      else if char = '\\' then do
        let (decoded, rest) ← unescape rest
        let (value, rest) ← scanString fuel rest
        some (decoded :: value, rest)
      else if char.toNat < 0x20 then none
      else do
        let (value, rest) ← scanString fuel rest
        some (char :: value, rest)

def scanDigits (text : Text) : Option (Text × Text) :=
  let (digits, rest) := text.span Char.isDigit
  if digits = [] then none else some (digits, rest)

def scanFraction : Text → Option (Bool × Text)
  | '.' :: rest => (scanDigits rest).map fun digits => (true, digits.2)
  | rest => some (false, rest)

def scanExponent : Text → Option (Bool × Text)
  | letter :: rest =>
      if letter = 'e' ∨ letter = 'E' then
        (scanDigits (if rest.head? = some '+' ∨ rest.head? = some '-' then rest.tail else rest)).map fun digits => (true, digits.2)
      else some (false, letter :: rest)
  | [] => some (false, [])

def scanNumber (text : Text) : Option (Lexeme × Text) := do
  let (whole, rest) ← scanDigits (if text.head? = some '-' then text.tail else text)
  if whole.head? = some '0' ∧ whole ≠ ['0'] then none
  else do
    let (fraction, rest) ← scanFraction rest
    let (exponent, rest) ← scanExponent rest
    some (if text.head? = some '-' ∨ fraction ∨ exponent then .other else .natural (Nat.ofDigitChars 10 whole 0), rest)

def scanLiteral (text : Text) : Option (Lexeme × Text) :=
  (["true", "false", "null"].find? fun literal => literal.toList.isPrefixOf text).map fun literal => (.other, text.drop literal.length)

def markOf (char : Char) : Option Mark :=
  [.openBrace, .closeBrace, .openBracket, .closeBracket, .colon, .comma].find? fun mark => mark.char == char

def scanLexeme (char : Char) (rest : Text) : Option (Lexeme × Text) :=
  match markOf char with
  | some mark => some (.mark mark, rest)
  | none =>
      if char = '\x22' then (scanString (rest.length + 1) rest).map fun (value, rest) => (.string value, rest)
      else if char.isDigit ∨ char = '-' then scanNumber (char :: rest)
      else scanLiteral (char :: rest)

def scanAll : Nat → Text → List Lexeme
  | 0, _ | _, [] => []
  | fuel + 1, char :: rest =>
      if isBlank char then scanAll fuel rest
      else
        match scanLexeme char rest with
        | some (lexeme, rest) => lexeme :: scanAll fuel rest
        | none => [.invalid]

theorem unescape_short {letter : Char} (known : shortEscape letter = some char) (rest : Text) :
    unescape (letter :: rest) = some (char, rest) := by
  have plain : letter ≠ 'u' := by
    rintro rfl
    cases known
  unfold unescape
  split
  next same => exact absurd (List.cons.inj same).1 plain
  next same =>
    cases same
    rw [known]
    rfl
  next same => cases same

theorem char_toNat_range (char : Char) : char.toNat < 0xD800 ∨ 0xDFFF < char.toNat ∧ char.toNat < 0x110000 := char.valid

theorem unescape_unit (spelled : codeUnit a b c d = some char.toNat) (rest : Text) :
    unescape ('u' :: a :: b :: c :: d :: rest) = some (char, rest) := by
  have range := char_toNat_range char
  simp only [unescape, spelled, Option.bind_eq_bind, Option.bind_some]
  rw [if_neg (by omega), if_neg (by omega), Char.ofNat_toNat]

theorem unescape_pair {e f g h : Char} {unit next : Nat} (high : codeUnit a b c d = some unit) (low : codeUnit e f g h = some next)
    (inHigh : 0xD800 ≤ unit ∧ unit < 0xDC00) (inLow : 0xDC00 ≤ next ∧ next < 0xE000)
    (joined : 0x10000 + (unit - 0xD800) * 0x400 + (next - 0xDC00) = char.toNat) (rest : Text) :
    unescape ('u' :: a :: b :: c :: d :: '\\' :: 'u' :: e :: f :: g :: h :: rest) = some (char, rest) := by
  simp only [unescape, high, low, Option.bind_eq_bind, Option.bind_some]
  rw [if_pos inHigh, if_pos inLow, joined, Char.ofNat_toNat]

theorem scanString_of_escapes (spelled : Escapes body value) {fuel : Nat} (enough : body.length < fuel) (rest : Text) :
    scanString fuel (body ++ '\x22' :: rest) = some (value, rest) := by
  induction spelled generalizing fuel with
  | nil =>
    obtain _ | fuel := fuel
    · omega
    simp [scanString]
  | plain visible unquoted unescaped _ ih =>
    obtain _ | fuel := fuel
    · omega
    rw [length_cons] at enough
    rw [cons_append, scanString, if_neg unquoted, if_neg unescaped, if_neg (by omega), ih (by omega)]
    rfl
  | short known _ ih =>
    obtain _ | fuel := fuel
    · omega
    simp only [length_cons] at enough
    rw [cons_append, cons_append, scanString, if_neg (by decide), if_pos rfl, unescape_short known]
    simp only [Option.bind_eq_bind, Option.bind_some]
    rw [ih (by omega)]
    rfl
  | unit known _ ih =>
    obtain _ | fuel := fuel
    · omega
    simp only [length_cons] at enough
    simp only [cons_append]
    rw [scanString, if_neg (by decide), if_pos rfl, unescape_unit known]
    simp only [Option.bind_eq_bind, Option.bind_some]
    rw [ih (by omega)]
    rfl
  | @pair _ _ _ _ _ _ _ _ char _ _ wide high low _ ih =>
    obtain _ | fuel := fuel
    · omega
    simp only [length_cons] at enough
    simp only [cons_append]
    have range := char_toNat_range char
    have joined : 0x10000 + (0xD800 + (char.toNat - 0x10000) / 0x400 - 0xD800) * 0x400 +
        (0xDC00 + (char.toNat - 0x10000) % 0x400 - 0xDC00) = char.toNat := by omega
    rw [scanString, if_neg (by decide), if_pos rfl, unescape_pair high low (by omega) (by omega) joined]
    simp only [Option.bind_eq_bind, Option.bind_some]
    rw [ih (by omega)]
    rfl

theorem isDigit_of_mem_number {value : Nat} (member : char ∈ number value) : char.isDigit = true :=
  Nat.isDigit_of_mem_toDigits (by decide) (by decide) member

theorem number_ne_nil (value : Nat) : number value ≠ [] := Nat.toDigits_ne_nil

/-- A positive number is spelled without a leading zero. -/
theorem head?_number {value : Nat} (positive : value ≠ 0) : (number value).head? ≠ some '0' := by
  induction value using Nat.strongRecOn with
  | ind value ih =>
    rw [number]
    by_cases small : value < 10
    · rw [Nat.toDigits_of_lt_base small, List.head?_cons]
      have digits : ∀ digit < 10, digit ≠ 0 → some digit.digitChar ≠ some '0' := by decide
      exact digits value small positive
    · have shorter := ih (value / 10) (by omega) (by omega)
      rw [Nat.toDigits_of_base_le (by decide) (by omega), List.head?_append_of_ne_nil _ Nat.toDigits_ne_nil]
      exact shorter

theorem scanDigits_number (value : Nat) {rest : Text} (ended : ∀ char ∈ rest.head?, char.isDigit = false) :
    scanDigits (number value ++ rest) = some (number value, rest) := by
  have whole : (number value ++ rest).span Char.isDigit = (number value, rest) := by
    rw [span_eq_takeWhile_dropWhile, takeWhile_append_of_pos fun _ => isDigit_of_mem_number,
      dropWhile_append_of_pos fun _ => isDigit_of_mem_number]
    cases rest with
    | nil => simp
    | cons char rest => simp [ended char (by simp)]
  rw [scanDigits, whole]
  simp [number_ne_nil]

theorem scanNumber_number (value : Nat) {rest : Text} (ended : ∀ char ∈ rest.head?, continuesNumber char = false) :
    scanNumber (number value ++ rest) = some (.natural value, rest) := by
  have unsigned : (number value ++ rest).head? ≠ some '-' := by
    rw [List.head?_append_of_ne_nil _ (number_ne_nil value)]
    intro sign
    exact absurd (isDigit_of_mem_number (mem_of_mem_head? sign)) (by decide)
  have digits := scanDigits_number value fun char member => by
    have stops := ended char member
    simp only [continuesNumber, Bool.or_eq_false_iff] at stops
    exact stops.1.1.1
  have plain : ¬((number value).head? = some '0' ∧ number value ≠ ['0']) := by
    rintro ⟨zero, long⟩
    by_cases null : value = 0
    · subst null
      exact long rfl
    · exact head?_number null zero
  have fraction : scanFraction rest = some (false, rest) := by
    unfold scanFraction
    split
    next => exact absurd (ended '.' rfl) (by decide)
    next => rfl
  have exponent : scanExponent rest = some (false, rest) := by
    cases rest with
    | nil => rfl
    | cons letter rest =>
      have stops := ended letter rfl
      rw [scanExponent, if_neg]
      rintro (rfl | rfl)
      · exact absurd stops (by decide)
      · exact absurd stops (by decide)
  have read : Nat.ofDigitChars 10 (number value) 0 = value := Nat.ofDigitChars_ten_toDigits
  rw [scanNumber, if_neg unsigned, digits]
  simp only [Option.bind_eq_bind, Option.bind_some, plain, if_false, fraction, exponent, unsigned, or_self, Bool.false_eq_true, read]

theorem markOf_char (mark : Mark) : markOf mark.char = some mark := by
  cases mark <;> rfl

theorem scanLexeme_mark (mark : Mark) (rest : Text) : isBlank mark.char = false ∧ scanLexeme mark.char rest = some (.mark mark, rest) := by
  rw [scanLexeme, markOf_char]
  cases mark <;> exact ⟨rfl, rfl⟩

theorem scanLexeme_string (spelled : Escapes body value) (rest : Text) :
    scanLexeme '\x22' (body ++ '\x22' :: rest) = some (.string value, rest) := by
  have unmarked : markOf '\x22' = none := rfl
  rw [scanLexeme, unmarked]
  simp only [if_true]
  rw [scanString_of_escapes spelled (by simp only [length_append, length_cons]; omega)]
  rfl

theorem scanLexeme_digit {first : Char} (digit : first.isDigit = true) (rest : Text) :
    isBlank first = false ∧ scanLexeme first rest = scanNumber (first :: rest) := by
  have unlike (other : Char) (plain : other.isDigit = false) : first ≠ other := by
    rintro rfl
    exact absurd digit (by simp [plain])
  have unmarked : markOf first = none := by
    simp only [markOf, List.find?_eq_none, beq_iff_eq]
    intro mark _
    refine (unlike mark.char ?_).symm
    cases mark <;> rfl
  constructor
  · simp [isBlank, unlike ' ' rfl, unlike '\n' rfl, unlike '\r' rfl, unlike '\t' rfl]
  · rw [scanLexeme, unmarked]
    simp [unlike '\x22' rfl, digit]

theorem scanAll_of_spells {lexemes : List Lexeme} (spelled : Spells text lexemes) {fuel : Nat} (enough : text.length < fuel) :
    scanAll fuel text = lexemes := by
  induction spelled generalizing fuel with
  | nil => cases fuel <;> rfl
  | blank blank _ ih =>
    obtain _ | fuel := fuel
    · omega
    rw [length_cons] at enough
    rw [scanAll, if_pos blank, ih (by omega)]
  | mark mark _ ih =>
    obtain _ | fuel := fuel
    · omega
    rw [length_cons] at enough
    obtain ⟨dark, scanned⟩ := scanLexeme_mark mark _
    rw [scanAll, dark, scanned]
    simp only [Bool.false_eq_true, if_false, ih (by omega : _ < fuel)]
  | string spelled _ ih =>
    obtain _ | fuel := fuel
    · omega
    simp only [length_cons, length_append] at enough
    rw [scanAll, if_neg (by decide), scanLexeme_string spelled]
    simp only [ih (by omega : _ < fuel)]
  | natural value ended _ ih =>
    obtain ⟨first, digits, spelled⟩ := exists_cons_of_ne_nil (number_ne_nil value)
    obtain _ | fuel := fuel
    · omega
    obtain ⟨dark, scanned⟩ := scanLexeme_digit (isDigit_of_mem_number (spelled ▸ mem_cons_self)) (digits ++ _)
    have number := scanNumber_number value ended
    rw [spelled, cons_append] at number enough ⊢
    simp only [length_cons, length_append] at enough
    rw [scanAll, dark, scanned, number]
    simp only [Bool.false_eq_true, if_false, ih (by omega : _ < fuel)]

/-- Reads a text from left to right, and stops where it is not JSON. -/
def Scanner.strict : Scanner where
  scan text := scanAll (text.length + 1) text
  conforms spelled := scanAll_of_spells spelled (Nat.lt_succ_self _)

end Retonr.Json
