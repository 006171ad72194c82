import Retonr.Lib.Text

/-! Regular expressions with leftmost-first priority. A match attempt lists every
remainder in the order in which a backtracking matcher would reach it, so its
head is the preferred match. Repetition is greedy and each round must consume. -/

namespace Retonr
open List

inductive Regex where
  | empty
  | chars (accepts : Char → Bool)
  | seq (first second : Regex)
  | alt (preferred other : Regex)
  | star (body : Regex)

namespace Regex

def literal : Text → Regex
  | [] => .empty
  | char :: rest => .seq (.chars (· == char)) (literal rest)

def plus (body : Regex) : Regex := .seq body (.star body)

def opt (body : Regex) : Regex := .alt body .empty

def times : Nat → Regex → Regex
  | 0, _ => .empty
  | count + 1, body => .seq body (times count body)

/-- Between `low` and `low + extra` copies, more of them preferred. -/
def timesUpTo (low : Nat) : Nat → Regex → Regex
  | 0, body => times low body
  | extra + 1, body => .alt (times (low + extra + 1) body) (timesUpTo low extra body)

def starFrom (step : Text → List Text) : Nat → Text → List Text
  | 0, text => [text]
  | fuel + 1, text => ((step text).filter (·.length < text.length)).flatMap (starFrom step fuel) ++ [text]

def run : Regex → Text → List Text
  | .empty, text => [text]
  | .chars _, [] => []
  | .chars accepts, char :: rest => if accepts char then [rest] else []
  | .seq first second, text => (first.run text).flatMap second.run
  | .alt preferred other, text => preferred.run text ++ other.run text
  | .star body, text => starFrom body.run text.length text

/-- The language of a pattern, independent of match priority. -/
inductive Matches : Regex → Text → Prop where
  | empty : Matches .empty []
  | chars {accepts char} (accepted : accepts char = true) : Matches (.chars accepts) [char]
  | seq {first second text rest} (head : Matches first text) (tail : Matches second rest) :
      Matches (.seq first second) (text ++ rest)
  | altPreferred {preferred other text} (matched : Matches preferred text) : Matches (.alt preferred other) text
  | altOther {preferred other text} (matched : Matches other text) : Matches (.alt preferred other) text
  | starStop {body} : Matches (.star body) []
  | starMore {body text rest} (round : Matches body text) (more : Matches (.star body) rest) :
      Matches (.star body) (text ++ rest)

private theorem starFrom_sound {body : Regex}
    (sound : ∀ text rest, rest ∈ body.run text → ∃ matched, text = matched ++ rest ∧ body.Matches matched)
    (fuel : Nat) (text rest : Text) (reached : rest ∈ starFrom body.run fuel text) :
    ∃ matched, text = matched ++ rest ∧ (Regex.star body).Matches matched := by
  induction fuel generalizing text with
  | zero =>
    simp only [starFrom, mem_singleton] at reached
    exact ⟨[], by simp [reached], .starStop⟩
  | succ fuel ih =>
    simp only [starFrom, mem_append, mem_flatMap, mem_filter, mem_singleton] at reached
    rcases reached with ⟨middle, ⟨step, _⟩, later⟩ | stopped
    · obtain ⟨first, split, round⟩ := sound text middle step
      obtain ⟨more, splitMore, repeated⟩ := ih middle later
      exact ⟨first ++ more, by rw [split, splitMore, append_assoc], .starMore round repeated⟩
    · exact ⟨[], by simp [stopped], .starStop⟩

theorem run_sound (pattern : Regex) (text rest : Text) (reached : rest ∈ pattern.run text) :
    ∃ matched, text = matched ++ rest ∧ pattern.Matches matched := by
  induction pattern generalizing text rest with
  | empty =>
    simp only [run, mem_singleton] at reached
    exact ⟨[], by simp [reached], .empty⟩
  | chars accepts =>
    cases text with
    | nil => simp [run] at reached
    | cons char tail =>
      simp only [run] at reached
      split at reached
      next accepted =>
        simp only [mem_singleton] at reached
        exact ⟨[char], by simp [reached], .chars accepted⟩
      next => simp at reached
  | seq first second firstIh secondIh =>
    simp only [run, mem_flatMap] at reached
    obtain ⟨middle, start, finish⟩ := reached
    obtain ⟨head, splitHead, headMatches⟩ := firstIh text middle start
    obtain ⟨tail, splitTail, tailMatches⟩ := secondIh middle rest finish
    exact ⟨head ++ tail, by rw [splitHead, splitTail, append_assoc], .seq headMatches tailMatches⟩
  | alt preferred other preferredIh otherIh =>
    simp only [run, mem_append] at reached
    rcases reached with chosen | chosen
    · obtain ⟨matched, split, holds⟩ := preferredIh text rest chosen
      exact ⟨matched, split, .altPreferred holds⟩
    · obtain ⟨matched, split, holds⟩ := otherIh text rest chosen
      exact ⟨matched, split, .altOther holds⟩
  | star body ih => exact starFrom_sound ih text.length text rest reached

private theorem starFrom_complete {body : Regex} (complete : ∀ matched rest, body.Matches matched → rest ∈ body.run (matched ++ rest))
    (matched rest : Text) (repeated : (Regex.star body).Matches matched) (fuel : Nat)
    (enough : (matched ++ rest).length ≤ fuel) : rest ∈ starFrom body.run fuel (matched ++ rest) := by
  generalize shape : Regex.star body = pattern at repeated
  induction repeated generalizing fuel with
  | starStop => cases fuel <;> simp [starFrom]
  | @starMore _ first more round later roundIh laterIh =>
    cases shape
    by_cases still : first = []
    · subst still
      simpa using laterIh fuel (by simpa using enough) rfl
    · have consumed : 0 < first.length := length_pos_of_ne_nil still
      obtain ⟨fuel, rfl⟩ : ∃ less, fuel = less + 1 := ⟨fuel - 1, by simp at enough; omega⟩
      have step := complete first (more ++ rest) round
      simp only [starFrom, mem_append, mem_flatMap, mem_filter]
      refine Or.inl ⟨more ++ rest, ⟨by simpa [append_assoc] using step, ?_⟩, ?_⟩
      · simp only [length_append, decide_eq_true_eq]
        omega
      · exact laterIh fuel (by simp only [length_append] at enough ⊢; omega) rfl
  | _ => cases shape

theorem run_complete (pattern : Regex) (matched rest : Text) (holds : pattern.Matches matched) : rest ∈ pattern.run (matched ++ rest) := by
  induction pattern generalizing matched rest with
  | empty => cases holds; simp [run]
  | chars accepts => cases holds with | chars accepted => simp [run, accepted]
  | seq first second firstIh secondIh =>
    cases holds with
    | @seq _ _ head tail headMatches tailMatches =>
      simp only [run, mem_flatMap]
      refine ⟨tail ++ rest, ?_, secondIh tail rest tailMatches⟩
      simpa [append_assoc] using firstIh head (tail ++ rest) headMatches
  | alt preferred other preferredIh otherIh =>
    simp only [run, mem_append]
    cases holds with
    | altPreferred chosen => exact Or.inl (preferredIh matched rest chosen)
    | altOther chosen => exact Or.inr (otherIh matched rest chosen)
  | star body ih => exact starFrom_complete ih matched rest holds _ (Nat.le_refl _)

/-- Backtracking reaches exactly the remainders the language allows. -/
theorem mem_run_iff (pattern : Regex) (text rest : Text) :
    rest ∈ pattern.run text ↔ ∃ matched, text = matched ++ rest ∧ pattern.Matches matched := by
  refine ⟨run_sound pattern text rest, ?_⟩
  rintro ⟨matched, rfl, holds⟩
  exact run_complete pattern matched rest holds

theorem matches_seq_iff (first second : Regex) (text : Text) :
    (Regex.seq first second).Matches text ↔ ∃ head tail, text = head ++ tail ∧ first.Matches head ∧ second.Matches tail := by
  constructor
  · intro matched
    cases matched with
    | @seq _ _ head tail headMatches tailMatches => exact ⟨head, tail, rfl, headMatches, tailMatches⟩
  · rintro ⟨head, tail, rfl, headMatches, tailMatches⟩
    exact .seq headMatches tailMatches

theorem matches_chars_iff (accepts : Char → Bool) (text : Text) :
    (Regex.chars accepts).Matches text ↔ ∃ char, text = [char] ∧ accepts char = true := by
  constructor
  · intro matched
    cases matched with
    | @chars _ char accepted => exact ⟨char, rfl, accepted⟩
  · rintro ⟨char, rfl, accepted⟩
    exact .chars accepted

theorem matches_literal_iff (word text : Text) : (literal word).Matches text ↔ text = word := by
  induction word generalizing text with
  | nil =>
    constructor
    · intro matched
      cases matched
      rfl
    · rintro rfl
      exact .empty
  | cons char rest ih =>
    simp only [literal, matches_seq_iff, matches_chars_iff, ih, beq_iff_eq]
    constructor
    · rintro ⟨_, _, rfl, ⟨_, rfl, rfl⟩, rfl⟩
      rfl
    · rintro rfl
      exact ⟨[char], rest, rfl, ⟨char, rfl, rfl⟩, rfl⟩

theorem matches_star_chars_iff (accepts : Char → Bool) (text : Text) :
    (Regex.star (.chars accepts)).Matches text ↔ ∀ char ∈ text, accepts char = true := by
  constructor
  · intro matched
    generalize shape : Regex.star (.chars accepts) = pattern at matched
    induction matched with
    | starStop => simp
    | @starMore _ first rest round later _ laterIh =>
      cases shape
      obtain ⟨char, rfl, accepted⟩ := (matches_chars_iff accepts first).mp round
      simpa [accepted] using laterIh rfl
    | _ => cases shape
  · intro each
    induction text with
    | nil => exact .starStop
    | cons char rest ih =>
      have later := ih fun other member => each other (mem_cons_of_mem _ member)
      exact Matches.starMore (.chars (each char mem_cons_self)) later

theorem matches_plus_chars_iff (accepts : Char → Bool) (text : Text) :
    (plus (.chars accepts)).Matches text ↔ text ≠ [] ∧ ∀ char ∈ text, accepts char = true := by
  simp only [plus, matches_seq_iff, matches_chars_iff, matches_star_chars_iff]
  constructor
  · rintro ⟨_, rest, rfl, ⟨char, rfl, accepted⟩, each⟩
    simpa [accepted] using each
  · rintro ⟨nonempty, each⟩
    obtain ⟨char, rest, rfl⟩ := exists_cons_of_ne_nil nonempty
    simp only [mem_cons, forall_eq_or_imp] at each
    exact ⟨[char], rest, rfl, ⟨char, rfl, each.1⟩, each.2⟩

theorem matches_times_chars_iff (accepts : Char → Bool) (count : Nat) (text : Text) :
    (times count (.chars accepts)).Matches text ↔ text.length = count ∧ ∀ char ∈ text, accepts char = true := by
  induction count generalizing text with
  | zero =>
    constructor
    · intro matched
      cases matched
      simp
    · rintro ⟨empty, _⟩
      obtain rfl := eq_nil_of_length_eq_zero empty
      exact .empty
  | succ count ih =>
    simp only [times, matches_seq_iff, matches_chars_iff, ih]
    constructor
    · rintro ⟨_, rest, rfl, ⟨char, rfl, accepted⟩, rfl, each⟩
      simpa [accepted, Nat.add_comm] using each
    · rintro ⟨length, each⟩
      obtain ⟨char, rest, rfl⟩ := exists_cons_of_length_pos (l := text) (by omega)
      simp only [mem_cons, forall_eq_or_imp, length_cons, Nat.add_right_cancel_iff] at each length
      exact ⟨[char], rest, rfl, ⟨char, rfl, each.1⟩, length, each.2⟩

/-- Every character class of the pattern stays within the given one. -/
def Within (allowed : Char → Prop) : Regex → Prop
  | .empty => True
  | .chars accepts => ∀ char, accepts char = true → allowed char
  | .seq first second => first.Within allowed ∧ second.Within allowed
  | .alt preferred other => preferred.Within allowed ∧ other.Within allowed
  | .star body => body.Within allowed

theorem Matches.within {allowed : Char → Prop} {pattern : Regex} {text : Text} (matched : pattern.Matches text)
    (within : pattern.Within allowed) : ∀ char ∈ text, allowed char := by
  induction matched with
  | empty => simp
  | chars accepted => simpa using within _ accepted
  | seq _ _ headIh tailIh =>
    simp only [mem_append]
    rintro char (member | member)
    · exact headIh within.1 char member
    · exact tailIh within.2 char member
  | altPreferred _ ih => exact ih within.1
  | altOther _ ih => exact ih within.2
  | starStop => simp
  | starMore _ _ roundIh laterIh =>
    simp only [mem_append]
    rintro char (member | member)
    · exact roundIh within char member
    · exact laterIh within char member

/-- The text is nonempty and its last character is of the given class. -/
def EndsIn (last : Char → Prop) (text : Text) : Prop := ∃ front char, text = front ++ [char] ∧ last char

theorem EndsIn.append {last : Char → Prop} {text : Text} (front : Text) (ends : EndsIn last text) : EndsIn last (front ++ text) := by
  obtain ⟨more, char, rfl, allowed⟩ := ends
  exact ⟨front ++ more, char, by simp, allowed⟩

theorem EndsIn.of_suffix {last : Char → Prop} {text back : Text} (ends : EndsIn last text) (suffix : back <:+ text)
    (nonempty : back ≠ []) : EndsIn last back := by
  obtain ⟨front, char, rfl, allowed⟩ := ends
  obtain ⟨more, other, rfl⟩ := (eq_nil_or_concat back).resolve_left nonempty
  obtain ⟨before, shape⟩ := suffix
  rw [concat_eq_append] at shape ⊢
  rw [← append_assoc] at shape
  have same : [other] = [char] := (append_inj' shape rfl).2
  obtain rfl : other = char := by simpa using same
  exact ⟨more, other, rfl, allowed⟩

/-- Every word of the pattern ends in a character of the given class. -/
def Ends (last : Char → Prop) (pattern : Regex) : Prop := ∀ text, pattern.Matches text → EndsIn last text

section Ends

variable {last : Char → Prop} {first second : Regex}

theorem ends_chars {accepts : Char → Bool} (each : ∀ char, accepts char = true → last char) : (Regex.chars accepts).Ends last := by
  intro text matched
  obtain ⟨char, rfl, accepted⟩ := (matches_chars_iff accepts text).mp matched
  exact ⟨[], char, rfl, each char accepted⟩

theorem Ends.seq (ends : second.Ends last) : (Regex.seq first second).Ends last := by
  intro text matched
  obtain ⟨head, tail, rfl, _, tailMatches⟩ := (matches_seq_iff first second text).mp matched
  exact (ends tail tailMatches).append head

theorem Ends.alt (left : first.Ends last) (right : second.Ends last) : (Regex.alt first second).Ends last := by
  intro text matched
  cases matched with
  | altPreferred chosen => exact left text chosen
  | altOther chosen => exact right text chosen

/-- Repetition ends where its last round ends, if there is one. -/
theorem Ends.star (ends : first.Ends last) {text : Text} (matched : (Regex.star first).Matches text) : text = [] ∨ EndsIn last text := by
  generalize shape : Regex.star first = pattern at matched
  induction matched with
  | starStop => exact Or.inl rfl
  | @starMore _ word rest round _ _ laterIh =>
    cases shape
    rcases laterIh rfl with rfl | later
    · simpa using Or.inr (ends word round)
    · exact Or.inr (later.append word)
  | _ => cases shape

theorem Ends.plus (ends : first.Ends last) : (Regex.plus first).Ends last := by
  intro text matched
  obtain ⟨head, tail, rfl, headMatches, tailMatches⟩ := (matches_seq_iff _ _ text).mp matched
  rcases ends.star tailMatches with rfl | later
  · simpa using ends head headMatches
  · exact later.append head

theorem Ends.seq_opt (left : first.Ends last) (right : second.Ends last) : (Regex.seq first (Regex.opt second)).Ends last := by
  intro text matched
  obtain ⟨head, tail, rfl, headMatches, tailMatches⟩ := (matches_seq_iff _ _ text).mp matched
  cases tailMatches with
  | altPreferred chosen => exact (right tail chosen).append head
  | altOther chosen =>
    cases chosen
    simpa using left head headMatches

theorem Ends.times (ends : first.Ends last) (count : Nat) : (Regex.times (count + 1) first).Ends last := by
  induction count with
  | zero =>
    intro text matched
    obtain ⟨head, tail, rfl, headMatches, tailMatches⟩ := (matches_seq_iff _ _ text).mp matched
    cases tailMatches
    simpa using ends head headMatches
  | succ count ih => exact Ends.seq ih

end Ends

/-- The preferred match of a sequence is the preferred match of its second part somewhere. -/
theorem head_run_seq {first second : Regex} {text rest : Text} (reached : ((Regex.seq first second).run text).head? = some rest) :
    ∃ middle, (second.run middle).head? = some rest := by
  simp only [run, List.head?_flatMap] at reached
  obtain ⟨middle, _, found⟩ := exists_of_findSome?_eq_some reached
  exact ⟨middle, found⟩

private theorem head_starFrom_chars (accepts : Char → Bool) (fuel : Nat) (text : Text) (enough : text.length ≤ fuel) :
    (starFrom (Regex.chars accepts).run fuel text).head? = some (text.dropWhile accepts) := by
  induction fuel generalizing text with
  | zero =>
    obtain rfl := eq_nil_of_length_eq_zero (Nat.le_zero.mp enough)
    rfl
  | succ fuel ih =>
    cases text with
    | nil => simp [starFrom, run]
    | cons char rest =>
      cases accepted : accepts char with
      | false => simp [starFrom, run, accepted]
      | true =>
        have later := ih rest (by simpa using enough)
        simp [starFrom, run, accepted, List.head?_append, later]

/-- A greedy repetition of one class stops only before a character outside it. -/
theorem head_plus_chars {accepts : Char → Bool} {text rest : Text} (reached : ((plus (.chars accepts)).run text).head? = some rest)
    {char : Char} (leading : rest.head? = some char) : accepts char = false := by
  obtain ⟨middle, found⟩ := head_run_seq reached
  rw [run, head_starFrom_chars accepts _ middle (Nat.le_refl _), Option.some.injEq] at found
  subst found
  have stopped := List.head?_dropWhile_not accepts middle
  simpa [leading] using stopped

/-- No word of the language is a proper start of another. -/
def PrefixFree (pattern : Regex) : Prop :=
  ∀ word other, pattern.Matches word → pattern.Matches other → word <+: other → word = other

end Regex

end Retonr
