import Retonr.Lib.JsonScanner

/-! JSON values and their texts. The tokens of a value leave open only white space and the escapes in
strings, so a text denotes a value when it spells the tokens of the value. A decoder is taken as a
parameter that reads every such text; a strict one shows that there are such decoders. -/

namespace Retonr.Json
open Text List

inductive Value where
  | null
  | bool (value : Bool)
  /-- A number as it is spelled: what it stands for is read from that. -/
  | number (spelling : Text)
  | string (value : Text)
  | array (items : List Value)
  | object (members : List (Text × Value))

inductive Token where
  | mark (mark : Mark)
  | string (value : Text)
  | word (spelling : Text)
  deriving DecidableEq

/-- The characters that literals and numbers are made of. -/
def isWordChar (char : Char) : Bool := char.isAlphanum || char == '-' || char == '+' || char == '.'

/-- A text spells a sequence of tokens, with characters of the given kind as white space between them. -/
inductive Tokens (blank : Char → Bool) : Text → List Token → Prop where
  | nil : Tokens blank [] []
  | blank {char : Char} {text : Text} {tokens : List Token} (space : blank char = true) (rest : Tokens blank text tokens) :
      Tokens blank (char :: text) tokens
  | mark {text : Text} {tokens : List Token} (mark : Mark) (rest : Tokens blank text tokens) :
      Tokens blank (mark.char :: text) (.mark mark :: tokens)
  | string {body value text : Text} {tokens : List Token} (spelled : Escapes body value) (rest : Tokens blank text tokens) :
      Tokens blank ('\x22' :: (body ++ '\x22' :: text)) (.string value :: tokens)
  | word {spelling text : Text} {tokens : List Token} (filled : spelling ≠ []) (inside : ∀ char ∈ spelling, isWordChar char = true)
      (ended : ∀ char ∈ text.head?, isWordChar char = false) (rest : Tokens blank text tokens) :
      Tokens blank (spelling ++ text) (.word spelling :: tokens)

theorem Tokens.mono {blank wider : Char → Bool} {text : Text} {tokens : List Token} (spelled : Tokens blank text tokens)
    (allows : ∀ char, blank char = true → wider char = true) : Tokens wider text tokens := by
  induction spelled with
  | nil => exact .nil
  | blank space _ ih => exact .blank (allows _ space) ih
  | mark mark _ ih => exact .mark mark ih
  | string spelled _ ih => exact .string spelled ih
  | word filled inside ended _ ih => exact .word filled inside ended ih

/-- A whole text that the grammar of numbers accepts. -/
def isNumber (spelling : Text) : Bool := (scanNumber spelling).any fun scanned => scanned.2.isEmpty

def wordValue (spelling : Text) : Option Value :=
  if spelling = "null".toList then some .null
  else if spelling = "true".toList then some (.bool true)
  else if spelling = "false".toList then some (.bool false)
  else if isNumber spelling then some (.number spelling)
  else none

namespace Value

mutual

/-- The tokens of a value, before those that follow it. -/
def tokens : Value → List Token → List Token
  | .null, rest => .word "null".toList :: rest
  | .bool value, rest => .word (if value then "true".toList else "false".toList) :: rest
  | .number spelling, rest => .word spelling :: rest
  | .string value, rest => .string value :: rest
  | .array [], rest => .mark .openBracket :: .mark .closeBracket :: rest
  | .array (item :: items), rest => .mark .openBracket :: item.tokens (itemTokens items rest)
  | .object [], rest => .mark .openBrace :: .mark .closeBrace :: rest
  | .object ((name, value) :: members), rest =>
      .mark .openBrace :: .string name :: .mark .colon :: value.tokens (memberTokens members rest)

def itemTokens : List Value → List Token → List Token
  | [], rest => .mark .closeBracket :: rest
  | item :: items, rest => .mark .comma :: item.tokens (itemTokens items rest)

def memberTokens : List (Text × Value) → List Token → List Token
  | [], rest => .mark .closeBrace :: rest
  | (name, value) :: members, rest => .mark .comma :: .string name :: .mark .colon :: value.tokens (memberTokens members rest)

end

mutual

/-- Every number of the value is spelled as one. -/
def WellFormed : Value → Prop
  | .number spelling => isNumber spelling = true
  | .array items => AllWellFormed items
  | .object members => MembersWellFormed members
  | _ => True

def AllWellFormed : List Value → Prop
  | [] => True
  | item :: items => item.WellFormed ∧ AllWellFormed items

def MembersWellFormed : List (Text × Value) → Prop
  | [] => True
  | (_, value) :: members => value.WellFormed ∧ MembersWellFormed members

end

end Value

/-- The text is JSON for the value, with such white space. -/
def Denotes (blank : Char → Bool) (text : Text) (value : Value) : Prop := value.WellFormed ∧ Tokens blank text (value.tokens [])

theorem Escapes.escape_cons (char : Char) {body value : Text} (rest : Escapes body value) : Escapes (Json.escape char ++ body) (char :: value) := by
  have named {code : Nat} (other : Char) (same : char.toNat = code) (known : other.toNat = code) : char = other := Char.toNat_inj.mp (same.trans known.symm)
  unfold Json.escape
  split
  next same =>
    obtain rfl := named '\x22' same rfl
    exact .short rfl rest
  next same =>
    obtain rfl := named '\\' same rfl
    exact .short rfl rest
  next same =>
    obtain rfl := named '\x08' same rfl
    exact .short rfl rest
  next same =>
    obtain rfl := named '\t' same rfl
    exact .short rfl rest
  next same =>
    obtain rfl := named '\n' same rfl
    exact .short rfl rest
  next same =>
    obtain rfl := named '\x0c' same rfl
    exact .short rfl rest
  next same =>
    obtain rfl := named '\r' same rfl
    exact .short rfl rest
  next quote slash _ _ _ _ _ =>
    split
    next control =>
      have digit : ∀ value < 16, hexValue (hexDigit value) = some value := by decide
      refine .unit ?_ rest
      rw [codeUnit, digit _ (by omega), digit _ (by omega)]
      change some (((0 * 16 + 0) * 16 + char.toNat / 16) * 16 + char.toNat % 16) = _
      rw [Option.some.injEq]
      omega
    next visible =>
      refine .plain (by omega) ?_ ?_ rest
      · rintro rfl
        exact quote rfl
      · rintro rfl
        exact slash rfl

/-- The escapes of the compact writer spell the text they are written for. -/
theorem Escapes.escape (value : Text) : Escapes (value.flatMap Json.escape) value := by
  induction value with
  | nil => exact .nil
  | cons char value ih => exact ih.escape_cons char

/-- A decoder that reads every text that is JSON for a value as that value. -/
structure Decoder where
  decode : Bytes → Option Value
  conforms : ∀ {text : Text} {value : Value}, Denotes isBlank text value → decode (encode text) = some value

/-! ### A strict decoder -/

def tokenize : Nat → Text → Option (List Token)
  | 0, _ => none
  | _ + 1, [] => some []
  | fuel + 1, char :: rest =>
      if isBlank char then tokenize fuel rest
      else
        match markOf char with
        | some mark => (tokenize fuel rest).map (.mark mark :: ·)
        | none =>
            if char = '\x22' then do
              let (value, rest) ← scanString (rest.length + 1) rest
              (tokenize fuel rest).map (.string value :: ·)
            else if isWordChar char then
              (tokenize fuel ((char :: rest).dropWhile isWordChar)).map (.word ((char :: rest).takeWhile isWordChar) :: ·)
            else none

mutual

def readValue : Nat → List Token → Option (Value × List Token)
  | 0, _ => none
  | _ + 1, .word spelling :: rest => (wordValue spelling).map (·, rest)
  | _ + 1, .string value :: rest => some (.string value, rest)
  | fuel + 1, .mark .openBracket :: rest =>
      if rest.head? = some (.mark .closeBracket) then some (.array [], rest.tail)
      else do
        let (item, rest) ← readValue fuel rest
        let (items, rest) ← readItems fuel rest
        some (.array (item :: items), rest)
  | _ + 1, .mark .openBrace :: .mark .closeBrace :: rest => some (.object [], rest)
  | fuel + 1, .mark .openBrace :: .string name :: .mark .colon :: rest => do
      let (value, rest) ← readValue fuel rest
      let (members, rest) ← readMembers fuel rest
      some (.object ((name, value) :: members), rest)
  | _ + 1, _ => none

def readItems : Nat → List Token → Option (List Value × List Token)
  | fuel + 1, .mark .comma :: rest => do
      let (item, rest) ← readValue fuel rest
      let (items, rest) ← readItems fuel rest
      some (item :: items, rest)
  | _ + 1, .mark .closeBracket :: rest => some ([], rest)
  | _, _ => none

def readMembers : Nat → List Token → Option (List (Text × Value) × List Token)
  | fuel + 1, .mark .comma :: .string name :: .mark .colon :: rest => do
      let (value, rest) ← readValue fuel rest
      let (members, rest) ← readMembers fuel rest
      some ((name, value) :: members, rest)
  | _ + 1, .mark .closeBrace :: rest => some ([], rest)
  | _, _ => none

end

theorem split_word {spelling text : Text} (inside : ∀ char ∈ spelling, isWordChar char = true)
    (ended : ∀ char ∈ text.head?, isWordChar char = false) :
    (spelling ++ text).takeWhile isWordChar = spelling ∧ (spelling ++ text).dropWhile isWordChar = text := by
  rw [takeWhile_append_of_pos inside, dropWhile_append_of_pos inside]
  cases text with
  | nil => simp
  | cons char text => simp [ended char (by simp)]

theorem word_begins {char : Char} (letter : isWordChar char = true) : isBlank char = false ∧ markOf char = none ∧ char ≠ '\x22' := by
  have unlike (other : Char) (plain : isWordChar other = false) : char ≠ other := by
    rintro rfl
    exact absurd letter (by simp [plain])
  refine ⟨?_, ?_, unlike '\x22' rfl⟩
  · simp [isBlank, unlike ' ' rfl, unlike '\n' rfl, unlike '\r' rfl, unlike '\t' rfl]
  · simp only [markOf, List.find?_eq_none, beq_iff_eq]
    intro mark _
    refine (unlike mark.char ?_).symm
    cases mark <;> rfl

theorem tokenize_of_tokens {text : Text} {tokens : List Token} (spelled : Tokens isBlank text tokens) {fuel : Nat} (enough : text.length < fuel) :
    tokenize fuel text = some tokens := by
  induction spelled generalizing fuel with
  | nil =>
    obtain _ | fuel := fuel
    · omega
    rfl
  | blank space _ ih =>
    obtain _ | fuel := fuel
    · omega
    rw [length_cons] at enough
    rw [tokenize, if_pos space, ih (by omega)]
  | mark mark _ ih =>
    obtain _ | fuel := fuel
    · omega
    rw [length_cons] at enough
    rw [tokenize, (scanLexeme_mark mark []).1, markOf_char, ih (by omega)]
    rfl
  | string spelled _ ih =>
    obtain _ | fuel := fuel
    · omega
    simp only [length_cons, length_append] at enough
    have unmarked : markOf '\x22' = none := rfl
    rw [tokenize, if_neg (by decide), unmarked]
    simp only [if_true]
    rw [scanString_of_escapes spelled (by simp only [length_append, length_cons]; omega)]
    simp only [Option.bind_eq_bind, Option.bind_some, ih (by omega : _ < fuel), Option.map_some]
  | @word spelling text tokens filled inside ended _ ih =>
    obtain _ | fuel := fuel
    · omega
    obtain ⟨taken, dropped⟩ := split_word inside ended
    obtain ⟨first, letters, rfl⟩ := exists_cons_of_ne_nil filled
    obtain ⟨dark, unmarked, unquoted⟩ := word_begins (inside first mem_cons_self)
    rw [cons_append] at taken dropped enough ⊢
    simp only [length_cons, length_append] at enough
    rw [tokenize, dark, unmarked]
    simp only [Bool.false_eq_true, if_false, unquoted, inside first mem_cons_self, if_true, taken, dropped, ih (by omega : _ < fuel),
      Option.map_some]

theorem wordValue_number {spelling : Text} (valid : isNumber spelling = true) : wordValue spelling = some (.number spelling) := by
  have unlike (word : Text) (other : isNumber word = false) : spelling ≠ word := by
    rintro rfl
    exact absurd valid (by simp [other])
  rw [wordValue, if_neg (unlike _ (by decide)), if_neg (unlike _ (by decide)), if_neg (unlike _ (by decide)), if_pos valid]

namespace Value

theorem head_tokens (value : Value) (rest : List Token) : (value.tokens rest).head? ≠ some (.mark .closeBracket) := by
  rcases value with _ | _ | _ | _ | ⟨_ | _⟩ | ⟨_ | _⟩ <;> simp [tokens]

mutual

theorem length_tokens (value : Value) (rest : List Token) : rest.length < (value.tokens rest).length :=
  match value with
  | .null | .bool _ | .number _ | .string _ => by simp [tokens]
  | .array [] | .object [] => by
    simp only [tokens, length_cons]
    omega
  | .array (item :: items) => by
    have first := length_tokens item (itemTokens items rest)
    have others := length_itemTokens items rest
    simp only [tokens, length_cons]
    omega
  | .object ((name, value) :: members) => by
    have first := length_tokens value (memberTokens members rest)
    have others := length_memberTokens members rest
    simp only [tokens, length_cons]
    omega

theorem length_itemTokens (items : List Value) (rest : List Token) : rest.length < (itemTokens items rest).length :=
  match items with
  | [] => by simp [itemTokens]
  | item :: items => by
    have first := length_tokens item (itemTokens items rest)
    have others := length_itemTokens items rest
    simp only [itemTokens, length_cons]
    omega

theorem length_memberTokens (members : List (Text × Value)) (rest : List Token) : rest.length < (memberTokens members rest).length :=
  match members with
  | [] => by simp [memberTokens]
  | (name, value) :: members => by
    have first := length_tokens value (memberTokens members rest)
    have others := length_memberTokens members rest
    simp only [memberTokens, length_cons]
    omega

end

mutual

theorem readValue_tokens (value : Value) (formed : value.WellFormed) (rest : List Token) {fuel : Nat} (enough : (value.tokens rest).length ≤ fuel) :
    readValue fuel (value.tokens rest) = some (value, rest) := by
  have positive := length_tokens value rest
  obtain _ | fuel := fuel
  · omega
  match value with
  | .null => rfl
  | .bool true | .bool false => rfl
  | .number spelling =>
    rw [tokens, readValue, wordValue_number formed]
    rfl
  | .string value => rfl
  | .array [] => rfl
  | .array (item :: items) =>
    have others := length_itemTokens items rest
    have longer := length_tokens item (itemTokens items rest)
    rw [tokens, length_cons] at enough
    rw [tokens, readValue, if_neg (head_tokens item _), readValue_tokens item formed.1 _ (by omega)]
    simp only [Option.bind_eq_bind, Option.bind_some]
    rw [readItems_itemTokens items formed.2 rest (by omega)]
    rfl
  | .object [] => rfl
  | .object ((name, value) :: members) =>
    have others := length_memberTokens members rest
    have longer := length_tokens value (memberTokens members rest)
    simp only [tokens, length_cons] at enough
    rw [tokens, readValue, readValue_tokens value formed.1 _ (by omega)]
    simp only [Option.bind_eq_bind, Option.bind_some]
    rw [readMembers_memberTokens members formed.2 rest (by omega)]
    rfl

theorem readItems_itemTokens (items : List Value) (formed : AllWellFormed items) (rest : List Token) {fuel : Nat}
    (enough : (itemTokens items rest).length ≤ fuel) : readItems fuel (itemTokens items rest) = some (items, rest) := by
  have positive := length_itemTokens items rest
  obtain _ | fuel := fuel
  · omega
  match items with
  | [] => rfl
  | item :: items =>
    have others := length_itemTokens items rest
    have longer := length_tokens item (itemTokens items rest)
    rw [itemTokens, length_cons] at enough
    rw [itemTokens, readItems, readValue_tokens item formed.1 _ (by omega)]
    simp only [Option.bind_eq_bind, Option.bind_some]
    rw [readItems_itemTokens items formed.2 rest (by omega)]
    rfl

theorem readMembers_memberTokens (members : List (Text × Value)) (formed : MembersWellFormed members) (rest : List Token) {fuel : Nat}
    (enough : (memberTokens members rest).length ≤ fuel) : readMembers fuel (memberTokens members rest) = some (members, rest) := by
  have positive := length_memberTokens members rest
  obtain _ | fuel := fuel
  · omega
  match members with
  | [] => rfl
  | (name, value) :: members =>
    have others := length_memberTokens members rest
    have longer := length_tokens value (memberTokens members rest)
    simp only [memberTokens, length_cons] at enough
    rw [memberTokens, readMembers, readValue_tokens value formed.1 _ (by omega)]
    simp only [Option.bind_eq_bind, Option.bind_some]
    rw [readMembers_memberTokens members formed.2 rest (by omega)]
    rfl

end

end Value

/-- Reads the whole text, and nothing that is not JSON. -/
def Decoder.strict : Decoder where
  decode bytes := do
    let text ← (Text.decode bytes).toOption
    let tokens ← tokenize (text.length + 1) text
    let (value, rest) ← readValue tokens.length tokens
    if rest.isEmpty then some value else none
  conforms := by
    intro text value ⟨formed, spelled⟩
    simp only [decode_encode, Except.toOption, Option.bind_eq_bind, Option.bind_some, tokenize_of_tokens spelled (Nat.lt_succ_self _),
      value.readValue_tokens formed [] (Nat.le_refl _), isEmpty_nil, if_true]

end Retonr.Json
