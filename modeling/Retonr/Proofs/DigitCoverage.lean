import Retonr.Proofs.Extraction
import Retonr.Proofs.Masking

/-! No digit escapes protection. Every digit lies in a number the search finds, and a number
that loses to an overlapping find lies wholly inside it: numbers end in a digit or a percent
sign, and no URL or email ends within such a run. -/

namespace Retonr
open Text List

/-- What the tables promise about decimal digits: none is white space or the minus sign. -/
structure Unicode.DigitsApart (unicode : Unicode) : Prop where
  space : ∀ char, unicode.decimalDigit char = true → Unicode.whiteSpace char = false
  minus : unicode.decimalDigit '−' = false

namespace Extract

variable {selected : List MatchSpan}

/-- What a selection keeps is disjoint and in order, and what it drops starts within something kept. -/
theorem selectSorted_spec {previousStop : Option Nat} {count : Nat} {spans : List MatchSpan}
    (sorted : spans.Pairwise fun span later => span.start ≤ later.start) (chosen : selectSorted previousStop count spans = .ok selected) :
    selected.Sublist spans ∧ selected.Pairwise (fun span later => span.stop ≤ later.start) ∧
      (∀ stop ∈ previousStop, ∀ span ∈ selected, stop ≤ span.start) ∧
      ∀ span ∈ spans, (∃ kept ∈ selected, kept = span ∨ kept.start ≤ span.start ∧ span.start < kept.stop) ∨
        ∃ stop ∈ previousStop, span.start < stop := by
  induction spans generalizing previousStop count selected with
  | nil =>
    cases chosen
    simp
  | cons span spans ih =>
    obtain ⟨first, sorted⟩ := pairwise_cons.mp sorted
    simp only [selectSorted] at chosen
    split at chosen
    next free =>
      split at chosen
      · cases chosen
      · obtain ⟨later, selects, rfl⟩ := Except.map_eq_ok.mp chosen
        obtain ⟨sublist, disjoint, beyond, covered⟩ := ih sorted selects
        have ahead : ∀ stop ∈ previousStop, stop ≤ span.start := by simpa [Option.all_eq_true] using free
        refine ⟨sublist.cons_cons span, List.Pairwise.cons (beyond _ rfl) disjoint, ?_, ?_⟩
        · intro stop previous other member
          rcases mem_cons.mp member with rfl | member
          · exact ahead stop previous
          · exact Nat.le_trans (ahead stop previous) (first other (sublist.subset member))
        · intro other member
          rcases mem_cons.mp member with rfl | member
          · exact Or.inl ⟨other, mem_cons_self, Or.inl rfl⟩
          · rcases covered other member with ⟨kept, inside, how⟩ | ⟨stop, previous, overlaps⟩
            · exact Or.inl ⟨kept, mem_cons_of_mem _ inside, how⟩
            · cases previous
              exact Or.inl ⟨span, mem_cons_self, Or.inr ⟨first other member, overlaps⟩⟩
    next overlapped =>
      obtain ⟨sublist, disjoint, beyond, covered⟩ := ih sorted chosen
      refine ⟨sublist.cons span, disjoint, beyond, ?_⟩
      intro other member
      rcases mem_cons.mp member with rfl | member
      · exact Or.inr (by simpa [Option.all_eq_true] using overlapped)
      · exact covered other member

theorem selectNonOverlapping_spec {spans : List MatchSpan} (chosen : selectNonOverlapping spans = .ok selected) :
    (∀ span ∈ selected, span ∈ spans) ∧ selected.Pairwise (fun span later => span.stop ≤ later.start) ∧
      ∀ span ∈ spans, ∃ kept ∈ selected, kept = span ∨ kept.start ≤ span.start ∧ span.start < kept.stop := by
  have sorted : (spans.insertionSort spanLe).Pairwise fun span later => span.start ≤ later.start := by
    refine (pairwise_insertionSort spanLe spans).imp ?_
    intro span later ordered
    unfold spanLe at ordered
    omega
  obtain ⟨sublist, disjoint, _, covered⟩ := selectSorted_spec sorted chosen
  refine ⟨fun span member => (mem_insertionSort spanLe).mp (sublist.subset member), disjoint, ?_⟩
  intro span member
  rcases covered span ((mem_insertionSort spanLe).mpr member) with found | ⟨stop, none, _⟩
  · exact found
  · cases none

def urlChar (char : Char) : Bool := !(Unicode.whiteSpace char || char ∈ ['<', '>', '\x22', '\x27'])

section Numbers

variable (unicode : Unicode)

def NumberChar (char : Char) : Prop :=
  unicode.decimalDigit char = true ∨ char ∈ ['-', '+', '−', '$', '€', '£', '.', ',', '/', '%']

/-- A text made of the characters of numbers that ends as a number does. -/
structure Numeric (surface : Text) : Prop where
  chars : ∀ char ∈ surface, NumberChar unicode char
  ends : Regex.EndsIn (fun char => unicode.decimalDigit char = true ∨ char = '%') surface

variable {unicode}

theorem numberBody_numeric {body : Text} (matched : (numberBody unicode).Matches body) : Numeric unicode body := by
  have within : (numberBody unicode).Within (NumberChar unicode) := by
    have digit : ∀ char, unicode.decimalDigit char = true → NumberChar unicode char := fun _ => Or.inl
    have currency : ∀ char, decide (char ∈ ['$', '€', '£']) = true → NumberChar unicode char := by
      intro char member
      simp only [mem_cons, not_mem_nil, or_false, decide_eq_true_eq] at member
      rcases member with rfl | rfl | rfl <;> exact Or.inr (by decide)
    have literal (mark : Char) (listed : mark ∈ ['.', ',']) : (Regex.literal [mark]).Within (NumberChar unicode) := by
      simp only [mem_cons, not_mem_nil, or_false] at listed
      simp only [Regex.literal, Regex.Within, beq_iff_eq, forall_eq, and_true]
      rcases listed with rfl | rfl <;> exact Or.inr (by decide)
    have fraction : (Regex.seq (Regex.literal ['.']) (Regex.plus (.chars unicode.decimalDigit))).Within (NumberChar unicode) :=
      ⟨literal '.' (by decide), digit, digit⟩
    have times : (Regex.times 3 (.chars unicode.decimalDigit)).Within (NumberChar unicode) := ⟨digit, digit, digit, trivial⟩
    have group := literal ',' (by decide)
    exact ⟨⟨currency, trivial⟩, fraction, ⟨⟨⟨⟨digit, digit, digit, trivial⟩, ⟨digit, digit, trivial⟩, digit, trivial⟩,
      ⟨group, times⟩, group, times⟩, digit, digit⟩, fraction, trivial⟩
  have ends : (numberBody unicode).Ends fun char => unicode.decimalDigit char = true ∨ char = '%' := by
    have digit : (Regex.chars unicode.decimalDigit).Ends fun char => unicode.decimalDigit char = true ∨ char = '%' :=
      Regex.ends_chars fun _ => Or.inl
    have fraction : (Regex.seq (Regex.literal ['.']) (Regex.plus (.chars unicode.decimalDigit))).Ends _ := digit.plus.seq
    have group : (Regex.seq (Regex.literal [',']) (Regex.times 3 (.chars unicode.decimalDigit))).Ends _ := (digit.times 2).seq
    exact (fraction.alt ((group.plus.seq.alt digit.plus).seq_opt fraction)).seq
  exact ⟨matched.within within, ends body matched⟩

theorem Numeric.behind {back : Text} (numeric : Numeric unicode back) {front : Text}
    (chars : ∀ char ∈ front, NumberChar unicode char) : Numeric unicode (front ++ back) := by
  refine ⟨?_, numeric.ends.append front⟩
  intro char member
  rcases mem_append.mp member with inside | inside
  · exact chars char inside
  · exact numeric.chars char inside

theorem Numeric.extend {surface more : Text} (numeric : Numeric unicode surface) (either : more = [] ∨ Numeric unicode more) :
    Numeric unicode (surface ++ more) := by
  rcases either with rfl | later
  · simpa using numeric
  · exact later.behind numeric.chars

theorem Numeric.ne_nil {surface : Text} (numeric : Numeric unicode surface) : surface ≠ [] := by
  obtain ⟨front, char, rfl, _⟩ := numeric.ends
  simp

theorem numberBody_head {body rest : Text} (reached : ((numberBody unicode).run body).head? = some rest) :
    ∃ taken, body = taken ++ rest ∧ Numeric unicode taken := by
  obtain ⟨taken, shape, matched⟩ := Regex.run_sound _ body rest (mem_of_mem_head? reached)
  exact ⟨taken, shape, numberBody_numeric matched⟩

variable (unicode) in
theorem fractionTail_numeric (fuel : Nat) (rest : Text) :
    ∃ taken, rest = taken ++ fractionTail unicode fuel rest ∧ (taken = [] ∨ Numeric unicode taken) := by
  induction fuel generalizing rest with
  | zero => exact ⟨[], rfl, Or.inl rfl⟩
  | succ fuel ih =>
    have stays (kept : fractionTail unicode (fuel + 1) rest = rest) :
        ∃ taken, rest = taken ++ fractionTail unicode (fuel + 1) rest ∧ (taken = [] ∨ Numeric unicode taken) :=
      ⟨[], by rw [kept]; rfl, Or.inl rfl⟩
    by_cases slash : ∃ after, rest = '/' :: after
    · obtain ⟨after, rfl⟩ := slash
      cases reached : ((numberBody unicode).run after).head? with
      | none => exact stays (by simp only [fractionTail, reached])
      | some next =>
        by_cases same : next.length = after.length
        · exact stays (by simp only [fractionTail, reached, same, if_true])
        · obtain ⟨body, rfl, numeric⟩ := numberBody_head reached
          obtain ⟨more, shape, either⟩ := ih next
          have slash : ∀ char ∈ ['/'], NumberChar unicode char := by simp [NumberChar]
          refine ⟨['/'] ++ body ++ more, ?_, Or.inr ((numeric.behind slash).extend either)⟩
          simp only [fractionTail, reached, same, if_false]
          rw [append_assoc, ← shape, append_assoc, singleton_append]
    · apply stays
      unfold fractionTail
      split
      · rfl
      · exact absurd ⟨_, rfl⟩ slash
      · rfl

variable (unicode) in
theorem dropPercent_numeric (rest : Text) : ∃ taken, rest = taken ++ dropPercent rest ∧ (taken = [] ∨ Numeric unicode taken) := by
  unfold dropPercent
  split
  · exact ⟨['%'], rfl, Or.inr ⟨by simp [NumberChar], [], '%', rfl, Or.inr rfl⟩⟩
  · exact ⟨[], rfl, Or.inl rfl⟩

theorem numberRest_numeric {before : Option Char} {text rest : Text} (found : numberRest unicode before text = some rest) :
    ∃ surface, text = surface ++ rest ∧ Numeric unicode surface := by
  cases text with
  | nil => cases found
  | cons first tail =>
    simp only [numberRest, Option.bind_eq_some_iff, Option.map_eq_some_iff] at found
    obtain ⟨body, signed, after, reached, rfl⟩ := found
    have sign : ∃ front, first :: tail = front ++ body ∧ ∀ char ∈ front, NumberChar unicode char := by
      split at signed
      next plus =>
        split at signed
        · cases signed
        · cases signed
          refine ⟨[first], rfl, ?_⟩
          simp only [isNumberSign, Bool.or_eq_true, beq_iff_eq] at plus
          rcases plus with (rfl | rfl) | rfl <;> simp [NumberChar]
      next =>
        cases signed
        exact ⟨[], rfl, by simp⟩
    obtain ⟨front, shape, chars⟩ := sign
    obtain ⟨digits, rfl, numeric⟩ := numberBody_head reached
    obtain ⟨fractions, split, either⟩ := fractionTail_numeric unicode after.length after
    obtain ⟨percent, last, maybe⟩ := dropPercent_numeric unicode (fractionTail unicode after.length after)
    refine ⟨front ++ digits ++ fractions ++ percent, ?_, ((numeric.behind chars).extend either).extend maybe⟩
    rw [shape, append_assoc (front ++ digits ++ fractions), ← last, append_assoc (front ++ digits), ← split, append_assoc]

theorem numberRest_leaves (before : Option Char) (text rest : Text) (found : numberRest unicode before text = some rest) : rest <:+ text := by
  obtain ⟨surface, shape, _⟩ := numberRest_numeric found
  exact ⟨surface, shape.symm⟩

/-- Every digit starts a number where no earlier one contains it. -/
theorem numberRest_of_digit (apart : unicode.DigitsApart) (before : Option Char) {digit : Char} (rest : Text)
    (decimal : unicode.decimalDigit digit = true) : numberRest unicode before (digit :: rest) ≠ none := by
  have unsigned : isNumberSign digit = false := by
    have ascii (sign : Char) (low : sign.toNat < 128) (other : sign.isDigit = false) : digit ≠ sign := by
      rintro rfl
      rw [unicode.decimalDigit_ascii digit low, other] at decimal
      cases decimal
    have minus : digit ≠ '−' := by
      rintro rfl
      rw [apart.minus] at decimal
      cases decimal
    simp [isNumberSign, ascii '-' (by decide) (by decide), ascii '+' (by decide) (by decide), minus]
  have matched : (numberBody unicode).Matches [digit] := by
    have one : (Regex.plus (.chars unicode.decimalDigit)).Matches [digit] := .seq (.chars decimal) .starStop
    exact .seq (.altOther .empty) (.altOther (.seq (.altOther one) (.altOther .empty)))
  have reached := Regex.run_complete _ [digit] rest matched
  intro missed
  simp only [numberRest, unsigned, Bool.false_eq_true, if_false, Option.bind_some, Option.map_eq_none_iff, List.head?_eq_none_iff] at missed
  rw [singleton_append, missed] at reached
  cases reached

variable {char : Char}

theorem NumberChar.not_alpha (number : NumberChar unicode char) : char.isAlpha = false := by
  apply Bool.eq_false_iff.mpr
  intro alpha
  rcases number with decimal | listed
  · have range := unicode.decimalDigit_range decimal
    have letters := Unicode.toNat_of_isAlpha alpha
    omega
  · simp only [mem_cons, not_mem_nil, or_false] at listed
    rcases listed with rfl | rfl | rfl | rfl | rfl | rfl | rfl | rfl | rfl | rfl <;> revert alpha <;> decide

/-- An ASCII character that is neither a digit nor one of the marks of numbers stands in no number. -/
theorem NumberChar.not_mem (number : NumberChar unicode char) {others : List Char}
    (ascii : ∀ other ∈ others, other.toNat < 48 ∨ 57 < other.toNat ∧ other.toNat < 128)
    (apart : ∀ mark ∈ ['-', '+', '−', '$', '€', '£', '.', ',', '/', '%'], mark ∉ others) : char ∉ others := by
  intro member
  rcases number with decimal | listed
  · have range := unicode.decimalDigit_range decimal
    have code := ascii char member
    omega
  · exact apart char listed member

/-- Numbers only use characters that URLs may contain. -/
theorem NumberChar.in_url (apart : unicode.DigitsApart) (number : NumberChar unicode char) : urlChar char = true := by
  have quotes : char ∉ ['<', '>', '\x22', '\x27'] := number.not_mem (all_iff_forall_prop.mp rfl) (all_iff_forall_prop.mp rfl)
  have space : Unicode.whiteSpace char = false := by
    rcases number with decimal | listed
    · exact apart.space char decimal
    · simp only [mem_cons, not_mem_nil, or_false] at listed
      rcases listed with rfl | rfl | rfl | rfl | rfl | rfl | rfl | rfl | rfl | rfl <;> decide
  simp only [urlChar, space, quotes, decide_false, Bool.or_false, Bool.not_false]

end Numbers

section Rivals

variable {unicode : Unicode}

def trimmable : List Char := ['.', ',', ';', ':', '!', '?', ')', ']', '\x7d']

theorem trimReversed_suffix (text : Text) : ∃ dropped, text = dropped ++ trimReversed text ∧ ∀ char ∈ dropped, char ∈ trimmable := by
  induction text with
  | nil => exact ⟨[], rfl, by simp⟩
  | cons last front ih =>
    unfold trimReversed
    split
    next trims =>
      obtain ⟨dropped, shape, each⟩ := ih
      refine ⟨last :: dropped, by rw [cons_append, ← shape], ?_⟩
      intro char member
      rcases mem_cons.mp member with rfl | member
      · rcases trims with punctuation | ⟨closer, _⟩
        · exact mem_append_left [')', ']', '\x7d'] punctuation
        · exact mem_append_right ['.', ',', ';', ':', '!', '?'] closer
      · exact each char member
    next => exact ⟨[], rfl, by simp⟩

theorem trimUrl_prefix (surface : Text) : ∃ dropped, surface = trimUrl surface ++ dropped ∧ ∀ char ∈ dropped, char ∈ trimmable := by
  obtain ⟨dropped, shape, each⟩ := trimReversed_suffix surface.reverse
  refine ⟨dropped.reverse, ?_, by simpa using each⟩
  have back := congrArg List.reverse shape
  simpa [trimUrl] using back

variable {source : Text} {hit : Hit}

/-- A found URL stands where the search found it, cut before punctuation that stops at a character no URL contains. -/
theorem urlHit_cases (member : hit ∈ urlHits source) :
    ∃ before dropped rest, source = before ++ hit.surface ++ (dropped ++ rest) ∧ hit.start = byteLen before ∧ hit.surface ≠ [] ∧
      (∀ char ∈ dropped, char ∈ trimmable) ∧ ∀ char, rest.head? = some char → urlChar char = false := by
  obtain ⟨found, searched, trimmed⟩ := mem_filterMap.mp member
  obtain ⟨before, rest, shape, start, accepted⟩ := Scan.mem_scanFrom _ none 0 searched
  rw [Nat.zero_add] at start
  obtain ⟨reached, _, _, _⟩ := Matcher.of_ofRegex_next accepted
  obtain ⟨dropped, split, each⟩ := trimUrl_prefix found.surface
  have kept : trimUrl found.surface ≠ [] ∧ hit = ⟨found.start, trimUrl found.surface⟩ := by
    simp only [trimmedUrl] at trimmed
    split at trimmed
    · cases trimmed
    next nonempty =>
      split at trimmed
      · split at trimmed
        · exact ⟨nonempty, by simpa using trimmed.symm⟩
        · cases trimmed
      · cases trimmed
  obtain ⟨nonempty, rfl⟩ := kept
  refine ⟨before, dropped, rest, ?_, start, nonempty, each, ?_⟩
  · rw [shape]
    conv_lhs => rw [split]
    simp
  · intro char leading
    obtain ⟨_, reached⟩ := Regex.head_run_seq reached
    obtain ⟨_, reached⟩ := Regex.head_run_seq reached
    obtain ⟨_, reached⟩ := Regex.head_run_seq reached
    exact Regex.head_plus_chars reached leading

theorem emailHit_ends (member : hit ∈ emailHits source) : Regex.EndsIn (fun char => char.isAlpha = true) hit.surface := by
  obtain ⟨_, _, _, _, accepted⟩ := Scan.mem_scanFrom _ none 0 member
  obtain ⟨_, _, _, matched⟩ := Matcher.of_ofRegex_next accepted
  have letter : (Regex.chars Char.isAlpha).Ends fun char => char.isAlpha = true := Regex.ends_chars fun _ alpha => alpha
  have letters : (Regex.seq (Regex.times 2 (.chars Char.isAlpha)) (.star (.chars Char.isAlpha))).Ends fun char => char.isAlpha = true := by
    intro text matched
    obtain ⟨head, tail, rfl, headMatches, tailMatches⟩ := (Regex.matches_seq_iff _ _ text).mp matched
    rcases letter.star tailMatches with rfl | later
    · simpa using letter.times 1 head headMatches
    · exact later.append head
  exact Regex.Ends.seq (Regex.Ends.seq (Regex.Ends.seq (Regex.Ends.seq letters))) hit.surface matched

theorem comparisonHit_chars (member : hit ∈ comparisonHits source) : ∀ char ∈ hit.surface, char ∈ ['!', '=', '<', '>'] := by
  obtain ⟨_, _, _, _, accepted⟩ := Scan.mem_scanFrom _ none 0 member
  have listed := Matcher.mem_of_firstOf_next accepted
  have each : ∀ operator ∈ comparisonOperators, operator ⊆ ['!', '=', '<', '>'] := by decide
  exact each _ listed

theorem numberHit_numeric (member : hit ∈ numberHits unicode source) : Numeric unicode hit.surface := by
  obtain ⟨_, _, _, _, accepted⟩ := Scan.mem_scanFrom _ none 0 member
  obtain ⟨found, _, _⟩ := (Matcher.ofRest_next_iff numberRest_leaves).mp accepted
  obtain ⟨surface, shape, numeric⟩ := numberRest_numeric found
  rwa [append_cancel_right shape]

variable {number : Hit}

theorem numberHit_cases (member : number ∈ numberHits unicode source) :
    ∃ before after, source = before ++ number.surface ++ after ∧ number.start = byteLen before ∧ Numeric unicode number.surface := by
  obtain ⟨_, before, after, shape, start, _⟩ := Scan.occupies_of_mem_scan _ member
  exact ⟨before, after, shape, start, numberHit_numeric member⟩

/-- A number that starts in a URL ends in it: behind the URL stands punctuation no number ends in, and then
a character no number contains. -/
theorem number_inside_url (apart : unicode.DigitsApart) {url : Hit} (searched : url ∈ urlHits source)
    (counted : number ∈ numberHits unicode source) (begun : url.start ≤ number.start) (unfinished : number.start < url.stop) :
    number.stop ≤ url.stop := by
  obtain ⟨before, dropped, rest, shape, start, _, punctuation, stops⟩ := urlHit_cases searched
  obtain ⟨numberBefore, numberAfter, numberShape, numberStart, numeric⟩ := numberHit_cases counted
  simp only [Hit.stop, start, numberStart] at *
  rcases inside_or_straddles shape numberShape begun unfinished with inside | ⟨shared, more, _, _, split, nonempty, leads⟩
  · exact inside
  · have ends := numeric.ends.of_suffix ⟨shared, split.symm⟩ nonempty
    by_cases short : byteLen more ≤ byteLen dropped
    · obtain ⟨front, last, rfl, allowed⟩ := ends
      have inside := (prefix_of_byteLen_le leads (prefix_append dropped rest) short).subset
      have trimmed : last ∈ trimmable := punctuation last (inside (by simp))
      have codes : ∀ char ∈ trimmable, (char.toNat < 48 ∨ 57 < char.toNat ∧ char.toNat < 128) ∧ char ≠ '%' :=
        all_iff_forall_prop.mp rfl
      rcases allowed with decimal | percent
      · have range := unicode.decimalDigit_range decimal
        have code := (codes last trimmed).1
        omega
      · exact absurd percent (codes last trimmed).2
    · obtain ⟨beyond, rfl⟩ := prefix_of_byteLen_le (prefix_append dropped rest) leads (by omega)
      have further : beyond <+: rest := (prefix_append_right_inj dropped).mp leads
      cases beyond with
      | nil => simp at short
      | cons char beyond =>
        obtain ⟨remaining, rfl⟩ := further
        have number := numeric.chars char (by rw [split]; simp)
        have stopped := stops char rfl
        rw [number.in_url apart] at stopped
        cases stopped

theorem number_inside_email {email : Hit} (searched : email ∈ emailHits source)
    (counted : number ∈ numberHits unicode source) (begun : email.start ≤ number.start) (unfinished : number.start < email.stop) :
    number.stop ≤ email.stop := by
  obtain ⟨_, before, after, shape, start, _⟩ := Scan.occupies_of_mem_scan _ searched
  obtain ⟨numberBefore, numberAfter, numberShape, numberStart, numeric⟩ := numberHit_cases counted
  simp only [Hit.stop, start, numberStart] at *
  rcases inside_or_straddles shape numberShape begun unfinished with inside | ⟨shared, more, nonempty, suffix, split, _, _⟩
  · exact inside
  · obtain ⟨front, last, rfl, alpha⟩ := (emailHit_ends searched).of_suffix suffix nonempty
    have number := numeric.chars last (by rw [split]; simp)
    rw [number.not_alpha] at alpha
    cases alpha

theorem number_outside_comparison {comparison : Hit} (searched : comparison ∈ comparisonHits source)
    (counted : number ∈ numberHits unicode source) (begun : comparison.start ≤ number.start) : comparison.stop ≤ number.start := by
  obtain ⟨_, before, after, shape, start, _⟩ := Scan.occupies_of_mem_scan _ searched
  obtain ⟨numberBefore, numberAfter, numberShape, numberStart, numeric⟩ := numberHit_cases counted
  apply Nat.le_of_not_lt
  intro unfinished
  simp only [Hit.stop, start, numberStart] at *
  obtain ⟨front, shared, _, split, nonempty, together⟩ := shared_start shape numberShape begun unfinished
  obtain ⟨char, shared, rfl⟩ := exists_cons_of_ne_nil nonempty
  obtain ⟨first, digits, leading⟩ := exists_cons_of_ne_nil numeric.ne_nil
  have same : char = first := by
    rw [leading] at together
    exact (List.cons.inj together).1
  have operator := comparisonHit_chars searched char (by rw [split]; simp)
  have number := numeric.chars char (by rw [leading, same]; simp)
  exact number.not_mem (all_iff_forall_prop.mp rfl) (all_iff_forall_prop.mp rfl) operator

private theorem pairwise_either {α : Type} {related : α → α → Prop} {items : List α} (ordered : items.Pairwise related) {left right : α}
    (leftMember : left ∈ items) (rightMember : right ∈ items) (different : left ≠ right) : related left right ∨ related right left := by
  induction ordered with
  | nil => cases leftMember
  | cons first _ ih =>
    rcases mem_cons.mp leftMember with rfl | leftLater <;> rcases mem_cons.mp rightMember with rfl | rightLater
    · exact absurd rfl different
    · exact Or.inl (first right rightLater)
    · exact Or.inr (first left leftLater)
    · exact ih leftLater rightLater

theorem numberHit_unique {earlier : Hit} (searched : earlier ∈ numberHits unicode source)
    (counted : number ∈ numberHits unicode source) (begun : earlier.start ≤ number.start) (unfinished : number.start < earlier.stop) :
    earlier = number := by
  have ordered := (Scan.scanFrom_pairwise (Matcher.ofRest (numberRest unicode)) none 0 source).1
  have positive := (Scan.occupies_of_mem_scan _ counted).2.start_lt (Scan.occupies_of_mem_scan _ counted).1
  by_contra different
  rcases pairwise_either ordered searched counted different with before | after
  · omega
  · omega

/-- A number that starts within a find of any kind ends within it. -/
theorem number_inside (apart : unicode.DigitsApart) {span : MatchSpan}
    (found : span ∈ typedSpans unicode source) (counted : number ∈ numberHits unicode source) (begun : span.start ≤ number.start)
    (unfinished : number.start < span.stop) : number.stop ≤ span.stop := by
  simp only [typedSpans, asSpans, mem_append, mem_map] at found
  rcases found with ⟨url, searched, rfl⟩ | ⟨email, searched, rfl⟩ | ⟨earlier, searched, rfl⟩ | ⟨comparison, searched, rfl⟩
  · exact number_inside_url apart searched counted begun unfinished
  · exact number_inside_email searched counted begun unfinished
  · exact Nat.le_of_eq (congrArg Hit.stop (numberHit_unique searched counted begun unfinished).symm)
  · exact absurd (number_outside_comparison searched counted begun) (Nat.not_le.mpr unfinished)

theorem typedSpan_occupies {span : MatchSpan} (found : span ∈ typedSpans unicode source) :
    span.start < span.stop ∧ ∃ surface, Occupies source span.start span.stop surface := by
  have of_hit (hit : Hit) (stands : hit.surface ≠ [] ∧ Occupies source hit.start hit.stop hit.surface) :
      hit.start < hit.stop ∧ ∃ surface, Occupies source hit.start hit.stop surface := ⟨stands.2.start_lt stands.1, _, stands.2⟩
  simp only [typedSpans, asSpans, mem_append, mem_map] at found
  rcases found with ⟨hit, searched, rfl⟩ | ⟨hit, searched, rfl⟩ | ⟨hit, searched, rfl⟩ | ⟨hit, searched, rfl⟩
  · obtain ⟨before, dropped, rest, shape, start, nonempty, _, _⟩ := urlHit_cases searched
    exact of_hit hit ⟨nonempty, before, dropped ++ rest, shape, start, by rw [Hit.stop, start]⟩
  · exact of_hit hit (Scan.occupies_of_mem_scan _ searched)
  · exact of_hit hit (Scan.occupies_of_mem_scan _ searched)
  · exact of_hit hit (Scan.occupies_of_mem_scan _ searched)

/-- Every digit lies in a number that the search finds. -/
theorem digit_in_number (apart : unicode.DigitsApart) {before after : Text} {digit : Char} (shape : source = before ++ digit :: after)
    (decimal : unicode.decimalDigit digit = true) :
    ∃ number ∈ numberHits unicode source, number.start ≤ byteLen before ∧ byteLen before < number.stop := by
  have accepts : ∀ previous char rest, unicode.decimalDigit char = true →
      (Matcher.ofRest (numberRest unicode)).next previous (char :: rest) ≠ none := by
    intro previous char rest decimal missed
    cases found : numberRest unicode previous (char :: rest) with
    | none => exact numberRest_of_digit apart previous rest decimal found
    | some left =>
      obtain ⟨surface, split, numeric⟩ := numberRest_numeric found
      have taken := (Matcher.ofRest_next_iff numberRest_leaves).mpr ⟨found, numeric.ne_nil, split⟩
      rw [missed] at taken
      cases taken
  have covered := Scan.scanFrom_covers (Matcher.ofRest (numberRest unicode)) none 0 accepts shape decimal
  rw [Nat.zero_add] at covered
  exact covered

end Rivals

/-- What the selected spans of a text are: in order, apart, whole characters, and around every digit. -/
structure Covers (unicode : Unicode) (text : Text) (selected : List MatchSpan) : Prop where
  increasing : selected.Pairwise fun span later => span.start < later.start
  disjoint : selected.Pairwise fun span later => span.stop ≤ later.start
  boundaries : ∀ span ∈ selected, span.start < span.stop ∧ isCharBoundary text span.start = true ∧ isCharBoundary text span.stop = true
  digits : ∀ before digit after, text = before ++ digit :: after → unicode.decimalDigit digit = true →
    ∃ span ∈ selected, span.start ≤ byteLen before ∧ byteLen before + digit.utf8Size ≤ span.stop

variable {unicode : Unicode} {text : Text}

theorem selectedTypedSpans_cases
    (chosen : selectedTypedSpans unicode text = .ok selected) : selectNonOverlapping (typedSpans unicode text) = .ok selected := by
  simp only [selectedTypedSpans, addTypedSpans_nil, limited] at chosen
  split at chosen
  · exact chosen
  · cases chosen

theorem selected_covers (apart : unicode.DigitsApart)
    (chosen : selectedTypedSpans unicode text = .ok selected) : Covers unicode text selected := by
  obtain ⟨found, disjoint, covered⟩ := selectNonOverlapping_spec (selectedTypedSpans_cases chosen)
  refine ⟨?_, disjoint, ?_, ?_⟩
  · refine disjoint.imp_of_mem ?_
    intro span later member _ apart
    exact Nat.lt_of_lt_of_le (typedSpan_occupies (found span member)).1 apart
  · intro span member
    obtain ⟨positive, surface, occupies⟩ := typedSpan_occupies (found span member)
    exact ⟨positive, occupies.boundaries⟩
  · intro before digit after shape decimal
    obtain ⟨number, counted, begun, unfinished⟩ := digit_in_number apart shape decimal
    have candidate : (⟨number.start, number.stop, .number⟩ : MatchSpan) ∈ typedSpans unicode text := by
      simp only [typedSpans, asSpans, mem_append, mem_map]
      exact Or.inr (Or.inr (Or.inl ⟨number, counted, rfl⟩))
    -- The number is kept itself, or what displaced it contains it.
    obtain ⟨kept, member, around⟩ : ∃ kept ∈ selected, kept.start ≤ number.start ∧ number.stop ≤ kept.stop := by
      obtain ⟨kept, member, rfl | ⟨starts, overlaps⟩⟩ := covered _ candidate
      · exact ⟨_, member, Nat.le_refl _, Nat.le_refl _⟩
      · exact ⟨kept, member, starts, number_inside apart (found kept member) counted starts overlaps⟩
    obtain ⟨_, surface, occupies⟩ := typedSpan_occupies (found kept member)
    exact ⟨kept, member, Nat.le_trans around.1 begun, occupies.char_le_stop shape (Nat.lt_of_lt_of_le unfinished around.2)⟩

/-- The digits of a text are the digits of its typed literals. -/
theorem digits_of_typedCounts (apart : unicode.DigitsApart) {counts : Multiset (ProtectedKind × Text)}
    (counted : typedCounts unicode text = .ok counts) :
    (text.filter unicode.decimalDigit : Multiset Char) = counts.bind fun entry => (entry.2.filter unicode.decimalDigit : Multiset Char) := by
  obtain ⟨selected, chosen, rfl⟩ := Except.map_eq_ok.mp counted
  obtain ⟨found, _, _⟩ := selectNonOverlapping_spec (selectedTypedSpans_cases chosen)
  have covers := selected_covers apart chosen
  have occupied : ∀ span ∈ selected, Occupies text span.start span.stop (slice text span.start span.stop) := by
    intro span member
    obtain ⟨_, surface, occupies⟩ := typedSpan_occupies (found span member)
    rwa [occupies.slice_eq]
  have account := filter_of_spans unicode.decimalDigit MatchSpan.start MatchSpan.stop (fun span => slice text span.start span.stop) text
    selected covers.disjoint occupied [] text rfl (fun _ _ => Nat.zero_le _) (by
      intro before digit after shape _ decimal
      obtain ⟨span, member, begun, unfinished⟩ := covers.digits before digit after shape decimal
      have positive := digit.utf8Size_pos
      exact ⟨span, member, begun, by omega⟩)
  rw [account]
  simp [surfacesOf, flatMap_map]

end Extract

/-- No digit escapes protection, so masking never lets one change. -/
theorem no_digit_escapes_protection (unicode : Unicode) (apart : unicode.DigitsApart) :
    (∀ text selected, Extract.selectedTypedSpans unicode text = .ok selected → Extract.Covers unicode text selected) ∧
      ∀ source terms plan candidate masked, ProtectionPlan.build unicode source terms = .ok plan →
        plan.maskRawCandidate unicode candidate = .ok masked →
        (source.filter unicode.decimalDigit : Multiset Char) = (candidate.filter unicode.decimalDigit : Multiset Char) := by
  refine ⟨fun text selected chosen => Extract.selected_covers apart chosen, ?_⟩
  intro source terms plan candidate masked built done
  have counted := (build_cases built).2.1
  have recounted := (maskRawCandidate_cases done).2.2.1
  rw [Extract.digits_of_typedCounts apart counted, Extract.digits_of_typedCounts apart recounted]

private theorem ascii_digitsApart : Unicode.ascii.DigitsApart := by
  refine ⟨?_, by decide⟩
  intro char decimal
  have range := Unicode.toNat_of_isDigit decimal
  simp only [Unicode.whiteSpace, Bool.or_eq_false_iff, Bool.and_eq_false_iff, decide_eq_false_iff_not, beq_eq_false_iff_ne]
  omega

theorem no_digit_escapes_protection_signed : ∃ selected, Extract.selectedTypedSpans Unicode.ascii "Pay -5% to a1@b.co".toList = .ok selected ∧
      Extract.Covers Unicode.ascii "Pay -5% to a1@b.co".toList selected := by
  have computed : (Extract.selectedTypedSpans Unicode.ascii "Pay -5% to a1@b.co".toList).toOption.isSome = true := rfl
  cases chosen : Extract.selectedTypedSpans Unicode.ascii "Pay -5% to a1@b.co".toList with
  | error fault =>
    rw [chosen] at computed
    cases computed
  | ok selected => exact ⟨selected, rfl, (no_digit_escapes_protection Unicode.ascii ascii_digitsApart).1 _ selected chosen⟩

end Retonr
