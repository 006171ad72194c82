import Retonr.Lib.Except
import Retonr.Lib.JsonScanner

/-! Values read from a sequence of lexemes in the order a streaming deserializer asks for them: an
object entry by entry and an array element by element, each folded into a state that the caller
keeps. Every fault of form is the same one, which the caller names. -/

namespace Retonr.Json
open List Retonr.Except

variable {ε α β : Type}

abbrev Reader (ε α : Type) := List Lexeme → Except ε (α × List Lexeme)

def expect (fault : ε) (mark : Mark) : List Lexeme → Except ε (List Lexeme)
  | .mark found :: rest => if found = mark then .ok rest else .error fault
  | _ => .error fault

def readString (fault : ε) : Reader ε Text
  | .string value :: rest => .ok (value, rest)
  | _ => .error fault

def readNatural (fault : ε) (limit : Nat) : Reader ε Nat
  | .natural value :: rest => if value < limit then .ok (value, rest) else .error fault
  | _ => .error fault

/-- What follows the separator, which stands before every item but the first. -/
def separated (fault : ε) (isFirst : Bool) (lexemes : List Lexeme) : Except ε (List Lexeme) :=
  if isFirst then .ok lexemes else expect fault .comma lexemes

/-- The key of the next entry of an object, or nothing at the closing brace, which stays. -/
def nextKey (fault : ε) (isFirst : Bool) (lexemes : List Lexeme) : Except ε (Option Text × List Lexeme) :=
  if lexemes.head? = some (.mark .closeBrace) then .ok (none, lexemes)
  else do
    let lexemes ← separated fault isFirst lexemes
    let (key, lexemes) ← readString fault lexemes
    .ok (some key, lexemes)

/-- Whether an array goes on, or is at the closing bracket, which stays. -/
def nextElement (fault : ε) (isFirst : Bool) (lexemes : List Lexeme) : Except ε (Bool × List Lexeme) :=
  if lexemes.head? = some (.mark .closeBracket) then .ok (false, lexemes)
  else do
    let lexemes ← separated fault isFirst lexemes
    require (lexemes.head? ≠ some (.mark .closeBracket)) fault
    .ok (true, lexemes)

/-- Folds the elements of an array into a state. Each element takes at least one lexeme, so their number is fuel enough. -/
def foldElements (fault : ε) (read : Reader ε α) (step : β → α → Except ε β) : Nat → Bool → β → Reader ε β
  | 0, _, _, _ => .error fault
  | fuel + 1, isFirst, state, lexemes => do
      let (more, lexemes) ← nextElement fault isFirst lexemes
      if more then do
        let (item, lexemes) ← read lexemes
        let state ← step state item
        foldElements fault read step fuel false state lexemes
      else .ok (state, lexemes)

def readArray (fault : ε) (read : Reader ε α) (step : β → α → Except ε β) (initial : β) : Reader ε β := fun lexemes => do
  let lexemes ← expect fault .openBracket lexemes
  let (state, lexemes) ← foldElements fault read step (lexemes.length + 1) true initial lexemes
  let rest ← expect fault .closeBracket lexemes
  .ok (state, rest)

def foldEntries (fault : ε) (entry : β → Text → Reader ε β) : Nat → Bool → β → Reader ε β
  | 0, _, _, _ => .error fault
  | fuel + 1, isFirst, state, lexemes => do
      let (key, lexemes) ← nextKey fault isFirst lexemes
      match key with
      | some key => do
          let lexemes ← expect fault .colon lexemes
          let (state, lexemes) ← entry state key lexemes
          foldEntries fault entry fuel false state lexemes
      | none => .ok (state, lexemes)

def readObject (fault : ε) (entry : β → Text → Reader ε β) (initial : β) : Reader ε β := fun lexemes => do
  let lexemes ← expect fault .openBrace lexemes
  let (state, lexemes) ← foldEntries fault entry (lexemes.length + 1) true initial lexemes
  let rest ← expect fault .closeBrace lexemes
  .ok (state, rest)

def readSole (fault : ε) (name : Text) (read : Reader ε α) : Reader ε α := fun lexemes => do
  let lexemes ← expect fault .openBrace lexemes
  let (key, lexemes) ← nextKey fault true lexemes
  require (key = some name) fault
  let lexemes ← expect fault .colon lexemes
  let (value, lexemes) ← read lexemes
  let (extra, lexemes) ← nextKey fault false lexemes
  require (extra = none) fault
  let rest ← expect fault .closeBrace lexemes
  .ok (value, rest)

/-- The next element of an array that has to have one. -/
def element (fault : ε) (isFirst : Bool) (read : Reader ε α) : Reader ε α := fun lexemes => do
  let (more, lexemes) ← nextElement fault isFirst lexemes
  if more then read lexemes else .error fault

/-- The value of exactly these lexemes, whatever follows them. -/
def Reads (read : Reader ε α) (lexemes : List Lexeme) (value : α) : Prop := ∀ rest, read (lexemes ++ rest) = .ok (value, rest)

@[simp] theorem expect_cons (fault : ε) (mark : Mark) (rest : List Lexeme) : expect fault mark (.mark mark :: rest) = .ok rest := by
  simp [expect]

theorem readString_reads (fault : ε) (value : Text) : Reads (readString fault) [.string value] value := fun _ => rfl

theorem readNatural_reads (fault : ε) {value limit : Nat} (fits : value < limit) : Reads (readNatural fault limit) [.natural value] value :=
  fun rest => by simp [readNatural, fits]

/-- An element begins with something else than the end of the array. -/
def Begins (lexemes : List Lexeme) : Prop := ∃ first rest, lexemes = first :: rest ∧ first ≠ .mark .closeBracket

/-- The elements of an array after the first, each after its separator. -/
def followed (parts : List (List Lexeme)) : List Lexeme := parts.flatMap (.mark .comma :: ·)

def commaSeparated : List (List Lexeme) → List Lexeme
  | [] => []
  | part :: parts => part ++ followed parts

/-- The text spells the lexemes wherever it stands. -/
def Spelling (text : Text) (lexemes : List Lexeme) : Prop := ∀ ⦃rest following⦄, Spells rest following → Spells (text ++ rest) (lexemes ++ following)

theorem Spelling.followed {texts : List Text} {parts : List (List Lexeme)} (each : List.Forall₂ Spelling texts parts) :
    Spelling (texts.flatMap (',' :: ·)) (followed parts) := by
  intro rest following after
  induction each with
  | nil => exact after
  | cons first _ ih =>
    simp only [flatMap_cons, Json.followed, cons_append, append_assoc] at ih ⊢
    exact .mark .comma (first ih)

/-- Texts between commas spell what they spell one by one. -/
theorem Spelling.commaSeparated {texts : List Text} {parts : List (List Lexeme)} (each : List.Forall₂ Spelling texts parts) :
    Spelling (List.intercalate [','] texts) (commaSeparated parts) := by
  intro rest following after
  cases each with
  | nil => exact after
  | cons first others =>
    rw [intercalate_cons, Json.commaSeparated, append_assoc, append_assoc]
    exact first (Spelling.followed others after)

section

variable {fault : ε} {read : Reader ε α} {step : β → α → Except ε β}

theorem nextElement_first {part : List Lexeme} (begins : Begins part) (rest : List Lexeme) :
    nextElement fault true (part ++ rest) = .ok (true, part ++ rest) := by
  obtain ⟨first, tail, rfl, opened⟩ := begins
  simp [nextElement, separated, require, opened]

theorem nextElement_next {part : List Lexeme} (begins : Begins part) (rest : List Lexeme) :
    nextElement fault false (.mark .comma :: (part ++ rest)) = .ok (true, part ++ rest) := by
  obtain ⟨first, tail, rfl, opened⟩ := begins
  simp [nextElement, separated, require, opened]

variable {state final : β} {fuel : Nat}

theorem foldElements_followed {items : List (List Lexeme × α)} (each : ∀ item ∈ items, Begins item.1 ∧ Reads read item.1 item.2)
    (folded : items.foldlM (fun state item => step state item.2) state = .ok final) (enough : items.length < fuel) (rest : List Lexeme) :
    foldElements fault read step fuel false state (followed (items.map Prod.fst) ++ .mark .closeBracket :: rest) =
      .ok (final, .mark .closeBracket :: rest) := by
  induction items generalizing state fuel with
  | nil =>
    obtain _ | fuel := fuel
    · omega
    cases folded
    rfl
  | cons item items ih =>
    obtain _ | fuel := fuel
    · omega
    obtain ⟨⟨begins, reads⟩, others⟩ := forall_mem_cons.mp each
    rw [foldlM_cons] at folded
    obtain ⟨next, here, there⟩ := bind_eq_ok.mp folded
    have start : followed ((item :: items).map Prod.fst) ++ .mark .closeBracket :: rest =
        .mark .comma :: (item.1 ++ (followed (items.map Prod.fst) ++ .mark .closeBracket :: rest)) := by simp [followed]
    rw [length_cons] at enough
    rw [start, foldElements, nextElement_next begins]
    simp only [ok_bind, if_true, reads _, here]
    exact ih others there (by omega)

theorem length_followed (parts : List (List Lexeme)) : parts.length ≤ (followed parts).length := by
  induction parts with
  | nil => exact Nat.le_refl _
  | cons part parts ih =>
    simp only [followed, flatMap_cons, length_append, length_cons] at ih ⊢
    omega

variable {initial : β}

theorem readArray_reads {items : List (List Lexeme × α)} (each : ∀ item ∈ items, Begins item.1 ∧ Reads read item.1 item.2)
    (folded : items.foldlM (fun state item => step state item.2) initial = .ok final) :
    Reads (readArray fault read step initial) (.mark .openBracket :: (commaSeparated (items.map Prod.fst) ++ [.mark .closeBracket])) final := by
  intro rest
  rw [cons_append, readArray, expect_cons, ok_bind]
  have elements : foldElements fault read step ((commaSeparated (items.map Prod.fst) ++ [Lexeme.mark .closeBracket] ++ rest).length + 1) true initial
      (commaSeparated (items.map Prod.fst) ++ [.mark .closeBracket] ++ rest) = .ok (final, Lexeme.mark .closeBracket :: rest) := by
    cases items with
    | nil =>
      cases folded
      rfl
    | cons item items =>
      obtain ⟨⟨begins, reads⟩, others⟩ := forall_mem_cons.mp each
      rw [foldlM_cons] at folded
      obtain ⟨next, here, there⟩ := bind_eq_ok.mp folded
      have start : commaSeparated ((item :: items).map Prod.fst) ++ [.mark .closeBracket] ++ rest =
          item.1 ++ (followed (items.map Prod.fst) ++ .mark .closeBracket :: rest) := by simp [commaSeparated]
      have room := length_followed (items.map Prod.fst)
      rw [length_map] at room
      rw [start, foldElements, nextElement_first begins]
      simp only [ok_bind, if_true, reads _, here]
      refine foldElements_followed others there ?_ rest
      simp only [length_append, length_cons]
      omega
  rw [elements, ok_bind]
  simp

def sole (name : Text) (value : List Lexeme) : List Lexeme :=
  .mark .openBrace :: .string name :: .mark .colon :: (value ++ [.mark .closeBrace])

variable {lexemes : List Lexeme}

theorem readSole_reads {name : Text} {value : α} (reads : Reads read lexemes value) :
    Reads (readSole fault name read) (sole name lexemes) value := by
  intro rest
  have inside := reads (.mark .closeBrace :: rest)
  simp [sole, readSole, nextKey, separated, readString, require, inside]

def entryLexemes (entry : Text × List Lexeme) : List Lexeme := .string entry.1 :: .mark .colon :: entry.2

/-- The states that the entries lead through, one after the other. -/
def Runs (entry : β → Text → Reader ε β) : β → List (Text × List Lexeme) → β → Prop
  | state, [], final => state = final
  | state, (key, value) :: entries, final => ∃ next, Reads (entry state key) value next ∧ Runs entry next entries final

theorem nextKey_first (entry : Text × List Lexeme) (rest : List Lexeme) :
    nextKey fault true (entryLexemes entry ++ rest) = .ok (some entry.1, .mark .colon :: (entry.2 ++ rest)) := rfl

theorem nextKey_next (entry : Text × List Lexeme) (rest : List Lexeme) :
    nextKey fault false (.mark .comma :: (entryLexemes entry ++ rest)) = .ok (some entry.1, .mark .colon :: (entry.2 ++ rest)) := rfl

theorem foldEntries_followed {entry : β → Text → Reader ε β} {entries : List (Text × List Lexeme)}
    (runs : Runs entry state entries final) (enough : entries.length < fuel) (rest : List Lexeme) :
    foldEntries fault entry fuel false state (followed (entries.map entryLexemes) ++ .mark .closeBrace :: rest) =
      .ok (final, .mark .closeBrace :: rest) := by
  induction entries generalizing state fuel with
  | nil =>
    obtain _ | fuel := fuel
    · omega
    cases runs
    rfl
  | cons first entries ih =>
    obtain _ | fuel := fuel
    · omega
    obtain ⟨next, reads, later⟩ := runs
    have start : followed ((first :: entries).map entryLexemes) ++ .mark .closeBrace :: rest =
        .mark .comma :: (entryLexemes first ++ (followed (entries.map entryLexemes) ++ .mark .closeBrace :: rest)) := by simp [followed]
    rw [length_cons] at enough
    rw [start, foldEntries, nextKey_next]
    simp only [ok_bind, expect_cons, reads _]
    exact ih later (by omega)

theorem readObject_reads {entry : β → Text → Reader ε β} {entries : List (Text × List Lexeme)} (runs : Runs entry initial entries final) :
    Reads (readObject fault entry initial) (.mark .openBrace :: (commaSeparated (entries.map entryLexemes) ++ [.mark .closeBrace])) final := by
  intro rest
  rw [cons_append, readObject, expect_cons, ok_bind]
  have folded : foldEntries fault entry ((commaSeparated (entries.map entryLexemes) ++ [Lexeme.mark .closeBrace] ++ rest).length + 1) true initial
      (commaSeparated (entries.map entryLexemes) ++ [.mark .closeBrace] ++ rest) = .ok (final, Lexeme.mark .closeBrace :: rest) := by
    cases entries with
    | nil =>
      cases runs
      rfl
    | cons first entries =>
      obtain ⟨next, reads, later⟩ := runs
      have start : commaSeparated ((first :: entries).map entryLexemes) ++ [.mark .closeBrace] ++ rest =
          entryLexemes first ++ (followed (entries.map entryLexemes) ++ .mark .closeBrace :: rest) := by simp [commaSeparated]
      have room := length_followed (entries.map entryLexemes)
      rw [length_map] at room
      rw [start, foldEntries, nextKey_first]
      simp only [ok_bind, expect_cons, reads _]
      refine foldEntries_followed later ?_ rest
      simp only [length_append, length_cons]
      omega
  rw [folded, ok_bind]
  simp

variable {rest : List Lexeme}

theorem readSole_eq_ok {name : Text} {value : α} (done : readSole fault name read lexemes = .ok (value, rest)) :
    ∃ inner after, read inner = .ok (value, after) := by
  simp only [readSole, bind_eq_ok, exists_unit, require_eq_ok, Prod.exists] at done
  obtain ⟨_, -, _, _, -, -, inner, -, found, after, here, _, _, -, -, _, -, done⟩ := done
  cases done
  exact ⟨inner, after, here⟩

theorem foldElements_keeps {holds : β → Prop} (kept : ∀ {state item next}, holds state → step state item = .ok next → holds next)
    {isFirst : Bool} (start : holds state)
    (done : foldElements fault read step fuel isFirst state lexemes = .ok (final, rest)) : holds final := by
  induction fuel generalizing isFirst state lexemes with
  | zero => cases done
  | succ fuel ih =>
    obtain ⟨⟨more, lexemes⟩, -, done⟩ := bind_eq_ok.mp done
    cases more with
    | true =>
      obtain ⟨⟨item, lexemes⟩, -, done⟩ := bind_eq_ok.mp done
      obtain ⟨next, stepped, done⟩ := bind_eq_ok.mp done
      exact ih (kept start stepped) done
    | false =>
      cases done
      exact start

theorem readArray_keeps {holds : β → Prop} (kept : ∀ {state item next}, holds state → step state item = .ok next → holds next)
    (start : holds initial) (done : readArray fault read step initial lexemes = .ok (final, rest)) : holds final := by
  obtain ⟨inner, -, done⟩ := bind_eq_ok.mp done
  obtain ⟨⟨state, after⟩, folded, done⟩ := bind_eq_ok.mp done
  obtain ⟨_, -, done⟩ := bind_eq_ok.mp done
  cases done
  exact foldElements_keeps kept start folded

end

end Retonr.Json
