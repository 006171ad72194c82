import Retonr.Lib.Regex

/-! Leftmost non-overlapping search. A matcher is tried at every character in turn;
after a hit the search resumes behind it. The search only ever advances, so its
hits tile the text, and replacing hits keeps every gap between them in place. -/

namespace Retonr
open Text List

/-- An anchored match attempt. It sees the preceding character and may only
accept a nonempty start of the text. -/
structure Matcher where
  next : Option Char → Text → Option (Text × Text)
  splits : ∀ {before text hit rest}, next before text = some (hit, rest) → hit ≠ [] ∧ text = hit ++ rest

namespace Matcher

/-- The matcher that accepts as many characters as the measure says. -/
def ofMeasure (measure : Option Char → Text → Option Nat) : Matcher where
  next before text :=
    match measure before text with
    | some count => if 0 < count ∧ count ≤ text.length then some (text.take count, text.drop count) else none
    | none => none
  splits := by
    intro before text hit rest found
    split at found
    next count measured =>
      split at found
      next inside =>
        cases found
        refine ⟨?_, (take_append_drop count text).symm⟩
        intro empty
        have short := congrArg List.length empty
        simp only [length_take, length_nil] at short
        omega
      · cases found
    · cases found

/-- An attempt that reports the text it leaves behind. -/
def ofRest (attempt : Option Char → Text → Option Text) : Matcher :=
  ofMeasure fun before text => (attempt before text).map (text.length - ·.length)

variable {before : Option Char} {text hit rest : Text}

/-- What such a matcher accepts, for an attempt that always leaves an end of the text behind. -/
theorem ofRest_next_iff {attempt : Option Char → Text → Option Text}
    (leaves : ∀ before text rest, attempt before text = some rest → rest <:+ text) :
    (ofRest attempt).next before text = some (hit, rest) ↔ attempt before text = some rest ∧ hit ≠ [] ∧ text = hit ++ rest := by
  constructor
  · intro found
    obtain ⟨nonempty, rfl⟩ := (ofRest attempt).splits found
    refine ⟨?_, nonempty, rfl⟩
    simp only [ofRest, ofMeasure] at found
    cases attempted : attempt before (hit ++ rest) with
    | none => simp [attempted] at found
    | some remaining =>
      have left := suffix_iff_eq_drop.mp (leaves before _ remaining attempted)
      rw [attempted] at found
      simp only [Option.map_some] at found
      split at found
      · simp only [Option.some.injEq, Prod.mk.injEq] at found
        rw [left, found.2]
      · cases found
  · rintro ⟨attempted, nonempty, rfl⟩
    have positive := length_pos_of_ne_nil nonempty
    simp [ofRest, ofMeasure, attempted, positive]

def ofRegex (pattern : Regex) : Matcher := ofRest fun _ text => (pattern.run text).head?

variable {pattern : Regex}

/-- The matcher of a pattern takes the preferred match, which is a word of the pattern. -/
theorem of_ofRegex_next (found : (ofRegex pattern).next before text = some (hit, rest)) :
    (pattern.run text).head? = some rest ∧ hit ≠ [] ∧ text = hit ++ rest ∧ pattern.Matches hit := by
  have leaves : ∀ (_ : Option Char) text rest, (pattern.run text).head? = some rest → rest <:+ text := by
    intro _ text rest reached
    obtain ⟨matched, shape, _⟩ := Regex.run_sound pattern text rest (mem_of_mem_head? reached)
    exact ⟨matched, shape.symm⟩
  obtain ⟨reached, nonempty, rfl⟩ := (ofRest_next_iff leaves).mp found
  obtain ⟨matched, shape, holds⟩ := Regex.run_sound pattern _ rest (mem_of_mem_head? reached)
  exact ⟨reached, nonempty, rfl, append_cancel_right shape ▸ holds⟩

/-- A pattern that needs input either fails everywhere or takes a word of its language. -/
theorem ofRegex_next (needs : ¬pattern.Matches []) (before : Option Char) (text : Text) :
    (∀ hit rest, text = hit ++ rest → ¬pattern.Matches hit) ∧ (ofRegex pattern).next before text = none ∨
      ∃ hit rest, (ofRegex pattern).next before text = some (hit, rest) ∧ text = hit ++ rest ∧ pattern.Matches hit := by
  simp only [ofRegex, ofRest, ofMeasure]
  cases remainders : pattern.run text with
  | nil =>
    refine Or.inl ⟨?_, rfl⟩
    intro hit rest shape matched
    have reached := (Regex.mem_run_iff pattern text rest).mpr ⟨hit, shape, matched⟩
    simp [remainders] at reached
  | cons rest others =>
    obtain ⟨hit, rfl, matched⟩ := Regex.run_sound pattern text rest (by simp [remainders])
    have nonempty : hit ≠ [] := fun empty => needs (empty ▸ matched)
    refine Or.inr ⟨hit, rest, ?_, rfl, matched⟩
    simp [length_pos_iff.mpr nonempty]

theorem ofRegex_next_word (needs : ¬pattern.Matches []) (free : pattern.PrefixFree) {word : Text}
    (matched : pattern.Matches word) (before : Option Char) (rest : Text) :
    (ofRegex pattern).next before (word ++ rest) = some (word, rest) := by
  rcases ofRegex_next needs before (word ++ rest) with ⟨missed, _⟩ | ⟨hit, remaining, found, shape, taken⟩
  · exact absurd matched (missed word rest rfl)
  · have same : hit = word := by
      rcases prefix_or_prefix_of_prefix ⟨remaining, shape.symm⟩ (prefix_append word rest) with shorter | longer
      · exact free hit word taken matched shorter
      · exact (free word hit matched taken longer).symm
    subst same
    rw [found, append_cancel_left shape]

def ofLiteral (word : Text) : Matcher := ofMeasure fun _ text => if word.isPrefixOf text then some word.length else none

/-- The longest of the words that starts here. -/
def longestOf (words : List Text) : Matcher :=
  ofMeasure fun _ text => ((words.filter (·.isPrefixOf text)).map List.length).max?

/-- The first of the words, in their own order, that starts here. -/
def firstOf (words : List Text) : Matcher :=
  ofMeasure fun _ text => (words.find? (·.isPrefixOf text)).map List.length

theorem mem_of_firstOf_next {words : List Text} (found : (firstOf words).next before text = some (hit, rest)) : hit ∈ words := by
  simp only [firstOf, ofMeasure] at found
  cases first : words.find? (·.isPrefixOf text) with
  | none => simp [first] at found
  | some word =>
    have leads : word <+: text := by simpa using List.find?_some first
    obtain ⟨remaining, rfl⟩ := leads
    simp only [first, Option.map_some, take_left, drop_left] at found
    split at found
    · simp only [Option.some.injEq, Prod.mk.injEq] at found
      rw [← found.1]
      exact mem_of_find?_eq_some first
    · cases found

end Matcher

structure Hit where
  start : Nat
  surface : Text
  deriving DecidableEq

namespace Hit

def stop (hit : Hit) : Nat := hit.start + byteLen hit.surface

end Hit

namespace Scan

def lastChar (before : Option Char) (text : Text) : Option Char := text.getLast?.or before

def scanFuel (matcher : Matcher) : Nat → Option Char → Nat → Text → List Hit
  | 0, _, _, _ => []
  | _ + 1, _, _, [] => []
  | fuel + 1, before, offset, char :: rest =>
      match matcher.next before (char :: rest) with
      | some (hit, tail) => ⟨offset, hit⟩ :: scanFuel matcher fuel (lastChar before hit) (offset + byteLen hit) tail
      | none => scanFuel matcher fuel (some char) (offset + char.utf8Size) rest

def scanFrom (matcher : Matcher) (before : Option Char) (offset : Nat) (text : Text) : List Hit :=
  scanFuel matcher text.length before offset text

def scan (matcher : Matcher) (text : Text) : List Hit := scanFrom matcher none 0 text

def find (matcher : Matcher) (text : Text) : Option Hit := (scan matcher text).head?

def isMatch (matcher : Matcher) (text : Text) : Bool := (find matcher text).isSome

/-- Copies the text, replacing the byte range of each edit by its text. -/
def splice (text : Text) : Nat → List (Nat × Nat × Text) → Text
  | cursor, [] => dropBytes cursor text
  | cursor, (start, stop, substitute) :: edits => slice text cursor start ++ substitute ++ splice text stop edits

@[simp] theorem lastChar_nil (before : Option Char) : lastChar before [] = before := by simp [lastChar]

theorem lastChar_cons (before : Option Char) (char : Char) (rest : Text) : lastChar before (char :: rest) = lastChar (some char) rest := by
  simp [lastChar, List.getLast?_cons]

theorem lastChar_append (before : Option Char) (first second : Text) :
    lastChar before (first ++ second) = lastChar (lastChar before first) second := by
  simp [lastChar, List.getLast?_append, Option.or_assoc]

private theorem scanFuel_enough (matcher : Matcher) (fuel more : Nat) (before : Option Char) (offset : Nat) (text : Text)
    (enough : text.length ≤ fuel) : scanFuel matcher (fuel + more) before offset text = scanFuel matcher fuel before offset text := by
  induction fuel generalizing before offset text with
  | zero =>
    obtain rfl : text = [] := eq_nil_of_length_eq_zero (by omega)
    cases more <;> simp [scanFuel]
  | succ fuel ih =>
    cases text with
    | nil => simp [scanFuel, Nat.succ_add]
    | cons char rest =>
      rw [Nat.succ_add]
      simp only [scanFuel]
      cases found : matcher.next before (char :: rest) with
      | none => exact ih _ _ _ (by simpa using enough)
      | some split =>
        obtain ⟨nonempty, shape⟩ := matcher.splits found
        have shorter := congrArg List.length shape
        have positive := length_pos_of_ne_nil nonempty
        simp only [length_append, length_cons] at shorter enough
        simp only [ih _ _ split.2 (by omega)]

variable (matcher : Matcher) (before : Option Char) (offset : Nat)

@[simp] theorem scanFrom_nil : scanFrom matcher before offset [] = [] := rfl

theorem scanFrom_miss (char : Char) (rest : Text) (missed : matcher.next before (char :: rest) = none) :
    scanFrom matcher before offset (char :: rest) = scanFrom matcher (some char) (offset + char.utf8Size) rest := by
  simp only [scanFrom, length_cons, scanFuel, missed]

theorem scanFrom_hit (text hit rest : Text) (found : matcher.next before text = some (hit, rest)) : scanFrom matcher before offset text =
      ⟨offset, hit⟩ :: scanFrom matcher (lastChar before hit) (offset + byteLen hit) rest := by
  obtain ⟨nonempty, shape⟩ := matcher.splits found
  obtain ⟨char, tail, rfl⟩ : ∃ char tail, text = char :: tail := by
    cases text with
    | nil => exact absurd (append_eq_nil_iff.mp shape.symm).1 nonempty
    | cons char tail => exact ⟨char, tail, rfl⟩
  have shorter := congrArg List.length shape
  have positive := length_pos_of_ne_nil nonempty
  simp only [length_append, length_cons] at shorter
  obtain ⟨more, sum⟩ : ∃ more, tail.length = rest.length + more := ⟨tail.length - rest.length, by omega⟩
  simp only [scanFrom, length_cons, scanFuel, found, sum]
  rw [scanFuel_enough matcher rest.length more _ _ rest (Nat.le_refl _)]

/-- A gap in which no attempt succeeds is skipped as a whole. -/
theorem scanFrom_gap (gap rest : Text) (quiet : ∀ first char last, gap = first ++ char :: last →
      matcher.next (lastChar before first) (char :: last ++ rest) = none) : scanFrom matcher before offset (gap ++ rest) =
      scanFrom matcher (lastChar before gap) (offset + byteLen gap) rest := by
  induction gap generalizing before offset with
  | nil => simp
  | cons char tail ih =>
    have missed := quiet [] char tail rfl
    rw [lastChar_nil] at missed
    rw [cons_append, scanFrom_miss matcher before offset char (tail ++ rest) missed, ih]
    · rw [byteLen_cons, Nat.add_assoc, lastChar_cons]
    · intro first next last shape
      have attempt := quiet (char :: first) next last (by rw [shape]; rfl)
      rwa [lastChar_cons] at attempt

theorem next_of_scanFrom_nil (text : Text) (none : scanFrom matcher before offset text = []) (first : Text) (char : Char)
    (last : Text) (shape : text = first ++ char :: last) : matcher.next (lastChar before first) (char :: last) = .none := by
  induction first generalizing before offset text with
  | nil =>
    subst shape
    cases attempt : matcher.next (lastChar before []) (char :: last) with
    | none => rfl
    | some split =>
      rw [nil_append, scanFrom_hit matcher before offset _ split.1 split.2 (by simpa using attempt)] at none
      cases none
  | cons head first ih =>
    subst shape
    cases attempt : matcher.next before (head :: (first ++ char :: last)) with
    | none =>
      rw [cons_append, scanFrom_miss matcher before offset head _ attempt] at none
      rw [lastChar_cons]
      exact ih (some head) _ _ none rfl
    | some split =>
      rw [cons_append, scanFrom_hit matcher before offset _ split.1 split.2 attempt] at none
      cases none

/-- The cases of a search: it ends, it moves on by a character, or it moves on behind a hit. -/
theorem scanFrom_induct {motive : Option Char → Nat → Text → List Hit → Prop} (ends : ∀ before offset, motive before offset [] [])
    (miss : ∀ before offset char rest hits, matcher.next before (char :: rest) = none →
      motive (some char) (offset + char.utf8Size) rest hits → motive before offset (char :: rest) hits)
    (hit : ∀ before offset surface rest hits, matcher.next before (surface ++ rest) = some (surface, rest) →
      motive (lastChar before surface) (offset + byteLen surface) rest hits → motive before offset (surface ++ rest) (⟨offset, surface⟩ :: hits))
    (text : Text) : motive before offset text (scanFrom matcher before offset text) := by
  induction length : text.length using Nat.strong_induction_on generalizing text before offset with
  | _ size ih =>
    subst length
    cases text with
    | nil => exact ends before offset
    | cons char tail =>
      cases found : matcher.next before (char :: tail) with
      | none =>
        rw [scanFrom_miss matcher before offset char tail found]
        exact miss before offset char tail _ found (ih _ (by simp) _ _ _ rfl)
      | some split =>
        obtain ⟨surface, rest⟩ := split
        obtain ⟨nonempty, shape⟩ := matcher.splits found
        have shorter : rest.length < (char :: tail).length := by
          have positive := length_pos_of_ne_nil nonempty
          rw [shape, length_append]
          omega
        rw [scanFrom_hit matcher before offset _ surface rest found]
        have later := ih _ shorter (lastChar before surface) (offset + byteLen surface) rest rfl
        rw [shape] at found ⊢
        exact hit before offset surface rest _ found later

variable {text : Text}

/-- Every hit stands in the text, at a place where the matcher accepts it. -/
theorem mem_scanFrom {hit : Hit} (member : hit ∈ scanFrom matcher before offset text) :
    ∃ first rest, text = first ++ hit.surface ++ rest ∧ hit.start = offset + byteLen first ∧
      matcher.next (lastChar before first) (hit.surface ++ rest) = some (hit.surface, rest) := by
  revert member
  refine scanFrom_induct matcher before offset (motive := fun before offset text hits => hit ∈ hits →
    ∃ first rest, text = first ++ hit.surface ++ rest ∧ hit.start = offset + byteLen first ∧
      matcher.next (lastChar before first) (hit.surface ++ rest) = some (hit.surface, rest)) ?_ ?_ ?_ text
  · intro before offset member
    cases member
  · intro before offset char tail hits _ ih member
    obtain ⟨first, rest, shape, start, accepted⟩ := ih member
    refine ⟨char :: first, rest, by simp [shape], ?_, by rwa [lastChar_cons]⟩
    rw [start, byteLen_cons]
    omega
  · intro before offset surface tail hits found ih member
    rcases mem_cons.mp member with rfl | later
    · exact ⟨[], tail, by simp, by simp, by simpa using found⟩
    · obtain ⟨first, rest, shape, start, accepted⟩ := ih later
      refine ⟨surface ++ first, rest, by simp [shape], ?_, by rwa [lastChar_append]⟩
      rw [start, byteLen_append]
      omega

theorem occupies_of_mem_scan {hit : Hit} (member : hit ∈ scan matcher text) :
    hit.surface ≠ [] ∧ Occupies text hit.start hit.stop hit.surface := by
  obtain ⟨first, rest, shape, start, accepted⟩ := mem_scanFrom matcher none 0 member
  rw [Nat.zero_add] at start
  exact ⟨(matcher.splits accepted).1, first, rest, shape, start, by rw [Hit.stop, start]⟩

/-- The search only advances: no hit starts before an earlier one has ended. -/
theorem scanFrom_pairwise (text : Text) : (scanFrom matcher before offset text).Pairwise (fun hit later => hit.stop ≤ later.start) ∧
      ∀ hit ∈ scanFrom matcher before offset text, offset ≤ hit.start := by
  refine scanFrom_induct matcher before offset (motive := fun _ offset _ hits =>
    hits.Pairwise (fun hit later => hit.stop ≤ later.start) ∧ ∀ hit ∈ hits, offset ≤ hit.start) ?_ ?_ ?_ text
  · simp
  · intro before offset char tail hits _ ih
    exact ⟨ih.1, fun hit member => Nat.le_of_add_right_le (ih.2 hit member)⟩
  · intro before offset surface tail hits _ ih
    refine ⟨List.Pairwise.cons ih.2 ih.1, ?_⟩
    intro hit member
    rcases mem_cons.mp member with rfl | later
    · exact Nat.le_refl _
    · exact Nat.le_of_add_right_le (ih.2 hit later)

/-- Where the matcher accepts something at every character of a class, each such character lies in a hit. -/
theorem scanFrom_covers {wanted : Char → Prop} (accepts : ∀ before char rest, wanted char → matcher.next before (char :: rest) ≠ none)
    {first rest : Text} {char : Char} (shape : text = first ++ char :: rest) (belongs : wanted char) :
    ∃ hit ∈ scanFrom matcher before offset text, hit.start ≤ offset + byteLen first ∧ offset + byteLen first < hit.stop := by
  revert first
  refine scanFrom_induct matcher before offset (motive := fun _ offset text hits => ∀ {first : Text}, text = first ++ char :: rest →
    ∃ hit ∈ hits, hit.start ≤ offset + byteLen first ∧ offset + byteLen first < hit.stop) ?_ ?_ ?_ text
  · intro before offset first shape
    simp at shape
  · intro before offset next tail hits missed ih first shape
    cases first with
    | nil =>
      obtain ⟨rfl, rfl⟩ : next = char ∧ tail = rest := by simpa using shape
      exact absurd missed (accepts before next tail belongs)
    | cons other first =>
      obtain ⟨rfl, rfl⟩ : next = other ∧ tail = first ++ char :: rest := by simpa using shape
      obtain ⟨hit, member, begun, unfinished⟩ := ih rfl
      refine ⟨hit, member, ?_, ?_⟩ <;> rw [byteLen_cons] <;> omega
  · intro before offset surface tail hits found ih first shape
    by_cases inside : byteLen first < byteLen surface
    · exact ⟨⟨offset, surface⟩, mem_cons_self, Nat.le_add_right _ _, Nat.add_lt_add_left inside offset⟩
    · obtain ⟨more, rfl⟩ := prefix_of_byteLen_le ⟨tail, shape⟩ (prefix_append first (char :: rest)) (Nat.le_of_not_lt inside)
      rw [append_assoc, append_cancel_left_eq] at shape
      obtain ⟨hit, member, begun, unfinished⟩ := ih shape
      refine ⟨hit, mem_cons_of_mem _ member, ?_, ?_⟩ <;> rw [byteLen_append] <;> omega

/-- A text in which the pattern is not found has no word of it anywhere. -/
theorem not_matches_of_not_isMatch {pattern : Regex} (needs : ¬pattern.Matches [])
    (absent : isMatch (Matcher.ofRegex pattern) text = false) {before word after : Text}
    (shape : text = before ++ word ++ after) : ¬pattern.Matches word := by
  intro matched
  have none : scan (Matcher.ofRegex pattern) text = [] := by simpa [isMatch, find] using absent
  cases word with
  | nil => exact needs matched
  | cons char last =>
    have missed := next_of_scanFrom_nil _ _ _ text none before char (last ++ after) (by simpa using shape)
    rcases Matcher.ofRegex_next needs (lastChar .none before) (char :: (last ++ after)) with ⟨free, _⟩ | ⟨hit, rest, found, _⟩
    · exact free (char :: last) after rfl matched
    · rw [missed] at found
      cases found

end Scan

/-- A text with holes: `gaps` precede the holes in order and `tail` ends it. -/
structure Template where
  gaps : List Text
  tail : Text

namespace Template

def fillFrom (tail : Text) : List Text → List Text → Text
  | gap :: gaps, filler :: fillers => gap ++ filler ++ fillFrom tail gaps fillers
  | _, _ => tail

def fill (template : Template) (fillers : List Text) : Text := fillFrom template.tail template.gaps fillers

/-- Where the fillers come to stand in the filled text. -/
def placeFrom (offset : Nat) : List Text → List Text → List Hit
  | gap :: gaps, filler :: fillers =>
      ⟨offset + byteLen gap, filler⟩ :: placeFrom (offset + byteLen gap + byteLen filler) gaps fillers
  | _, _ => []

def place (template : Template) (fillers : List Text) : List Hit := placeFrom 0 template.gaps fillers

def edits (hits : List Hit) (substitutes : List Text) : List (Nat × Nat × Text) :=
  List.zipWith (fun hit substitute => (hit.start, hit.stop, substitute)) hits substitutes

private theorem splice_fillFrom (done tail : Text) (gaps fillers substitutes : List Text)
    (same : fillers.length = gaps.length) (also : substitutes.length = gaps.length) :
    Scan.splice (done ++ fillFrom tail gaps fillers) (byteLen done)
      (edits (placeFrom (byteLen done) gaps fillers) substitutes) = fillFrom tail gaps substitutes := by
  induction gaps generalizing done fillers substitutes with
  | nil =>
    obtain rfl := eq_nil_of_length_eq_zero same
    obtain rfl := eq_nil_of_length_eq_zero also
    simp [fillFrom, placeFrom, edits, Scan.splice]
  | cons gap gaps ih =>
    obtain ⟨filler, fillers, rfl⟩ := exists_cons_of_length_pos (l := fillers) (by simp [same])
    obtain ⟨substitute, substitutes, rfl⟩ := exists_cons_of_length_pos (l := substitutes) (by simp [also])
    have later := ih (done ++ gap ++ filler) fillers substitutes (by simpa using same) (by simpa using also)
    simp only [byteLen_append, append_assoc] at later
    simp only [fillFrom, placeFrom, edits, zipWith_cons_cons, Scan.splice, Hit.stop, append_assoc]
    rw [← Nat.add_assoc] at later
    simp only [edits, Hit.stop] at later
    rw [later]
    congr 1
    simpa [append_assoc] using slice_append done gap (filler ++ fillFrom tail gaps fillers)

/-- Replacing every filler where it stands leaves exactly the gaps as they were. -/
theorem splice_fill (template : Template) (fillers substitutes : List Text)
    (same : fillers.length = template.gaps.length) (also : substitutes.length = template.gaps.length) :
    Scan.splice (template.fill fillers) 0 (edits (template.place fillers) substitutes) = template.fill substitutes := by
  simpa [fill, place] using splice_fillFrom [] template.tail template.gaps fillers substitutes same also

private theorem byteLen_fillFrom (tail : Text) (gaps fillers : List Text) (same : fillers.length = gaps.length) :
    byteLen (fillFrom tail gaps fillers) = (gaps.map byteLen).sum + (fillers.map byteLen).sum + byteLen tail := by
  induction gaps generalizing fillers with
  | nil =>
    obtain rfl := eq_nil_of_length_eq_zero same
    simp [fillFrom]
  | cons gap gaps ih =>
    obtain ⟨filler, fillers, rfl⟩ := exists_cons_of_length_pos (l := fillers) (by simp [same])
    have later := ih fillers (by simpa using same)
    simp only [fillFrom, byteLen_append, map_cons, sum_cons, later]
    omega

theorem byteLen_fill (template : Template) (fillers : List Text) (same : fillers.length = template.gaps.length) :
    byteLen (template.fill fillers) = (template.gaps.map byteLen).sum + (fillers.map byteLen).sum + byteLen template.tail :=
  byteLen_fillFrom template.tail template.gaps fillers same

@[simp] theorem placeFrom_surfaces (offset : Nat) (gaps fillers : List Text) (same : fillers.length = gaps.length) :
    (placeFrom offset gaps fillers).map Hit.surface = fillers := by
  induction gaps generalizing offset fillers with
  | nil => simp [eq_nil_of_length_eq_zero same, placeFrom]
  | cons gap gaps ih =>
    obtain ⟨filler, fillers, rfl⟩ := exists_cons_of_length_pos (l := fillers) (by simp [same])
    simp [placeFrom, ih _ fillers (by simpa using same)]

private theorem scanFrom_tiles (matcher : Matcher) (before : Option Char) (offset : Nat) (gap text : Text) :
    ∃ gaps tail fillers, fillers.length = gaps.length ∧ gap ++ text = fillFrom tail gaps fillers ∧
      Scan.scanFrom matcher before (offset + byteLen gap) text = placeFrom offset gaps fillers ∧
      ∀ filler ∈ fillers, ∃ before rest, matcher.next before (filler ++ rest) = some (filler, rest) := by
  -- The gap grows by every character that is passed over, until a hit closes it.
  refine Scan.scanFrom_induct matcher before (offset + byteLen gap) (motive := fun _ place text hits =>
    ∀ offset gap, place = offset + byteLen gap → ∃ gaps tail fillers, fillers.length = gaps.length ∧
      gap ++ text = fillFrom tail gaps fillers ∧ hits = placeFrom offset gaps fillers ∧
      ∀ filler ∈ fillers, ∃ before rest, matcher.next before (filler ++ rest) = some (filler, rest)) ?_ ?_ ?_ text offset gap rfl
  · intro before place offset gap _
    exact ⟨[], gap, [], rfl, by simp [fillFrom], by simp [placeFrom], by simp⟩
  · intro before place char rest hits _ ih offset gap stands
    obtain ⟨gaps, tail, fillers, same, shape, placed, each⟩ := ih offset (gap ++ [char]) (by simp [stands, Nat.add_assoc])
    exact ⟨gaps, tail, fillers, same, by simpa using shape, placed, each⟩
  · intro before place surface rest hits found ih offset gap stands
    obtain ⟨gaps, tail, fillers, same, shape, placed, each⟩ := ih (offset + byteLen gap + byteLen surface) [] (by simp [stands])
    rw [nil_append] at shape
    refine ⟨gap :: gaps, tail, surface :: fillers, by simpa using same, by simp [fillFrom, shape], by simp [placeFrom, placed, stands], ?_⟩
    intro filler member
    rcases mem_cons.mp member with rfl | member
    · exact ⟨before, rest, found⟩
    · exact each filler member

private theorem scanFrom_fillFrom (matcher : Matcher) (tail : Text) (gaps fillers : List Text) (same : fillers.length = gaps.length)
    (delimited : ∀ filler ∈ fillers, ∀ before rest, matcher.next before (filler ++ rest) = some (filler, rest))
    (quiet : ∀ gap ∈ tail :: gaps, ∀ first char last before rest, gap = first ++ char :: last →
      (rest = [] ∨ ∃ filler ∈ fillers, filler <+: rest) → matcher.next before (char :: last ++ rest) = none)
    (before : Option Char) (offset : Nat) :
    Scan.scanFrom matcher before offset (fillFrom tail gaps fillers) = placeFrom offset gaps fillers := by
  induction gaps generalizing fillers before offset with
  | nil =>
    obtain rfl := eq_nil_of_length_eq_zero same
    have skipped := Scan.scanFrom_gap matcher before offset tail []
      fun first char last shape => quiet tail mem_cons_self first char last _ [] shape (Or.inl rfl)
    simpa [fillFrom, placeFrom] using skipped
  | cons gap gaps ih =>
    obtain ⟨filler, fillers, rfl⟩ := exists_cons_of_length_pos (l := fillers) (by simp [same])
    have skipped := Scan.scanFrom_gap matcher before offset gap (filler ++ fillFrom tail gaps fillers)
      fun first char last shape => quiet gap (by simp) first char last _ _ shape
        (Or.inr ⟨filler, mem_cons_self, prefix_append _ _⟩)
    have found := delimited filler mem_cons_self (Scan.lastChar before gap) (fillFrom tail gaps fillers)
    have later := ih fillers (by simpa using same)
      (fun other member => delimited other (mem_cons_of_mem _ member))
      (fun other member first char last before rest shape stop => quiet other (by simp at member ⊢; tauto) first char last
        before rest shape (stop.imp_right fun ⟨next, inside, leads⟩ => ⟨next, mem_cons_of_mem _ inside, leads⟩))
    simp only [fillFrom, placeFrom, append_assoc]
    rw [skipped, Scan.scanFrom_hit matcher _ _ _ filler _ found, later]

/-- Fillers that delimit themselves, between gaps in which nothing starts, are exactly what a search finds. -/
theorem scan_fill (matcher : Matcher) (template : Template) (fillers : List Text) (same : fillers.length = template.gaps.length)
    (delimited : ∀ filler ∈ fillers, ∀ before rest, matcher.next before (filler ++ rest) = some (filler, rest))
    (quiet : ∀ gap ∈ template.tail :: template.gaps, ∀ first char last before rest, gap = first ++ char :: last →
      (rest = [] ∨ ∃ filler ∈ fillers, filler <+: rest) → matcher.next before (char :: last ++ rest) = none) :
    Scan.scan matcher (template.fill fillers) = template.place fillers :=
  scanFrom_fillFrom matcher template.tail template.gaps fillers same delimited quiet none 0

private theorem infix_fillFrom (tail : Text) (gaps fillers : List Text) (same : fillers.length = gaps.length)
    {gap : Text} (member : gap ∈ tail :: gaps) : gap <:+: fillFrom tail gaps fillers := by
  induction gaps generalizing fillers with
  | nil =>
    obtain rfl := eq_nil_of_length_eq_zero same
    obtain rfl : gap = tail := by simpa using member
    exact infix_rfl
  | cons first gaps ih =>
    obtain ⟨filler, fillers, rfl⟩ := exists_cons_of_length_pos (l := fillers) (by simp [same])
    simp only [mem_cons] at member
    have later (inside : gap ∈ tail :: gaps) : gap <:+: fillFrom tail (first :: gaps) (filler :: fillers) :=
      (ih fillers (by simpa using same) inside).trans (suffix_append (first ++ filler) _).isInfix
    rcases member with rfl | rfl | member
    · exact later mem_cons_self
    · simp only [fillFrom, append_assoc]
      exact (prefix_append _ _).isInfix
    · exact later (mem_cons_of_mem _ member)

/-- Every gap stands in the filled text as it is. -/
theorem infix_fill (template : Template) (fillers : List Text) (same : fillers.length = template.gaps.length)
    {gap : Text} (member : gap ∈ template.tail :: template.gaps) : gap <:+: template.fill fillers :=
  infix_fillFrom template.tail template.gaps fillers same member

/-- Every search lays the text out as a template whose fillers are its hits. -/
theorem scan_tiles (matcher : Matcher) (text : Text) : ∃ (template : Template) (fillers : List Text), fillers.length = template.gaps.length ∧
      text = template.fill fillers ∧ Scan.scan matcher text = template.place fillers ∧
      ∀ filler ∈ fillers, ∃ before rest, matcher.next before (filler ++ rest) = some (filler, rest) := by
  obtain ⟨gaps, tail, fillers, same, shape, hits, each⟩ :=
    scanFrom_tiles matcher none 0 [] text
  exact ⟨⟨gaps, tail⟩, fillers, same, shape, hits, each⟩

end Template

end Retonr
