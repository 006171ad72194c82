import Retonr.Engine.Protection

/-! Sentinel words. Opening braces stand only at the very start of a sentinel and
closing braces only at its end, so no two sentinels overlap, none extends
another, and none can be completed by text that stands next to it. -/

namespace Retonr
open Text List

variable (unicode : Unicode)

private theorem decimalDigit_false (char : Char) (low : char.toNat < 128) (other : char.isDigit = false) :
    unicode.decimalDigit char = false := by
  rw [unicode.decimalDigit_ascii char low, other]

theorem sentinel_shape {word : Text} (matched : (sentinelPattern unicode).Matches word) :
    ∃ body, word = sentinelOpening ++ body ++ sentinelClosing ∧ '\x7b' ∉ body ∧ '\x7d' ∉ body := by
  simp only [sentinelPattern, Regex.matches_seq_iff, Regex.matches_literal_iff, Regex.matches_plus_chars_iff,
    Regex.matches_times_chars_iff] at matched
  obtain ⟨_, _, rfl, rfl, label, _, rfl, ⟨_, upper⟩, _, _, rfl, rfl, digits, _, rfl, ⟨_, numeric⟩, rfl⟩ := matched
  have plain (brace : Char) (low : brace.toNat < 128) (noDigit : brace.isDigit = false)
      (noLabel : (brace.isUpper || brace == '_') = false) (noBar : brace ≠ '_') : brace ∉ label ++ ['_'] ++ digits := by
    intro member
    simp only [mem_append, mem_singleton] at member
    rcases member with (inLabel | same) | inDigits
    · exact absurd (upper brace inLabel) (by simp [noLabel])
    · exact noBar same
    · exact absurd (numeric brace inDigits) (by simp [decimalDigit_false unicode brace low noDigit])
  exact ⟨label ++ ['_'] ++ digits, by simp, plain _ (by decide) (by decide) (by decide) (by decide),
    plain _ (by decide) (by decide) (by decide) (by decide)⟩

theorem sentinelPattern_needs : ¬(sentinelPattern unicode).Matches [] := by
  intro matched
  obtain ⟨body, shape, _⟩ := sentinel_shape unicode matched
  simp [sentinelOpening] at shape

private theorem eq_of_prefix_of_marker {marker : Char} {first second firstRest secondRest : Text} (firstFree : marker ∉ first)
    (secondFree : marker ∉ second) (leads : first ++ marker :: firstRest <+: second ++ marker :: secondRest) : first = second := by
  induction first generalizing second with
  | nil =>
    cases second with
    | nil => rfl
    | cons head tail =>
      have same := (cons_prefix_cons.mp leads).1
      simp [same] at secondFree
  | cons char first ih =>
    cases second with
    | nil =>
      have same := (cons_prefix_cons.mp leads).1
      simp [same] at firstFree
    | cons head second =>
      obtain ⟨rfl, later⟩ := cons_prefix_cons.mp leads
      simp only [mem_cons, not_or] at firstFree secondFree
      rw [ih firstFree.2 secondFree.2 later]

theorem sentinelPattern_prefixFree : (sentinelPattern unicode).PrefixFree := by
  intro word other wordMatches otherMatches leads
  obtain ⟨body, rfl, _, closed⟩ := sentinel_shape unicode wordMatches
  obtain ⟨rest, rfl, _, closedRest⟩ := sentinel_shape unicode otherMatches
  simp only [append_assoc, prefix_append_right_inj] at leads
  rw [eq_of_prefix_of_marker closed closedRest leads]

/-- A sentinel that starts in a gap ends in that gap: what follows a gap opens a sentinel of its own. -/
theorem sentinel_inside_gap {word gap rest : Text} (matched : (sentinelPattern unicode).Matches word) (nonempty : gap ≠ [])
    (leads : word <+: gap ++ rest) (opens : rest = [] ∨ sentinelOpening <+: rest) : word <+: gap := by
  rcases opens with rfl | ⟨more, rfl⟩
  · simpa using leads
  obtain ⟨body, rfl, opened, _⟩ := sentinel_shape unicode matched
  obtain ⟨head, tail, rfl⟩ := exists_cons_of_ne_nil nonempty
  rcases prefix_or_prefix_of_prefix leads (prefix_append (head :: tail) _) with inside | ⟨extra, shape⟩
  · exact inside
  rw [← shape] at leads ⊢
  have beyond := (prefix_append_right_inj _).mp leads
  -- what reaches past the gap repeats the opening braces, which a sentinel has only at its start
  cases extra with
  | nil => simp
  | cons next extra =>
    exfalso
    obtain ⟨rfl, second⟩ := cons_prefix_cons.mp (show next :: extra <+: '\x7b' :: _ from beyond)
    cases tail with
    | nil =>
      have tailShape : extra = 'P' :: _ := (List.cons.inj (List.cons.inj shape).2).2
      rw [tailShape] at second
      exact absurd (cons_prefix_cons.mp second).1 (by decide)
    | cons other tail =>
      have braces : '\x7b' ∈ ['P', 'R', 'O', 'T', 'E', 'C', 'T', 'E', 'D', '_'] ++ body ++ sentinelClosing := by
        have tailShape := (List.cons.inj (List.cons.inj shape).2).2
        rw [show ['P', 'R', 'O', 'T', 'E', 'C', 'T', 'E', 'D', '_'] ++ body ++ sentinelClosing = tail ++ '\x7b' :: extra from
          tailShape.symm]
        simp
      simp [opened, sentinelClosing] at braces

theorem length_zeroPadded {value : Nat} (small : value < 10000) : (zeroPadded 4 value).length = 4 := by
  have short := (Nat.length_toDigits_le_iff (n := value) (b := 10) (k := 4) (by decide) (by decide)).mpr (by omega)
  simp only [zeroPadded, decimal, length_append, length_replicate]
  omega

theorem isDigit_of_mem_zeroPadded {width value : Nat} {char : Char} (member : char ∈ zeroPadded width value) : char.isDigit = true := by
  rcases mem_append.mp member with padding | digit
  · rw [eq_of_mem_replicate padding]
    decide
  · exact Nat.isDigit_of_mem_toDigits (by decide) (by decide) digit

theorem zeroPadded_injective {width value other : Nat} (same : zeroPadded width value = zeroPadded width other) : value = other := by
  have reads (number : Nat) : Nat.ofDigitChars 10 (zeroPadded width number) 0 = number := by
    have zeros : ∀ count, Nat.ofDigitChars 10 (List.replicate count '0' ++ decimal number) 0 = number := by
      intro count
      induction count with
      | zero => simp [decimal]
      | succ count ih => simpa [replicate_succ, Nat.ofDigitChars_cons] using ih
    exact zeros _
  rw [← reads value, same, reads other]

private theorem toNat_lt_of_isDigit {char : Char} (digit : char.isDigit = true) : char.toNat < 128 := by
  simp only [Char.isDigit, Bool.and_eq_true, decide_eq_true_eq] at digit
  have bound := UInt32.le_iff_toNat_le.mp digit.2
  simp only [Char.toNat]
  exact Nat.lt_of_le_of_lt bound (by decide)

theorem tokenLabel_upper (kind : ProtectedKind) :
    kind.tokenLabel ≠ [] ∧ (kind.tokenLabel.all fun char => char.isUpper || char == '_') = true := by
  cases kind <;> decide

theorem matches_sentinelToken (kind : ProtectedKind) {ordinal : Nat} (small : ordinal < 10000) :
    (sentinelPattern unicode).Matches (sentinelToken kind ordinal) := by
  simp only [sentinelPattern, Regex.matches_seq_iff, Regex.matches_literal_iff, Regex.matches_plus_chars_iff,
    Regex.matches_times_chars_iff]
  refine ⟨_, kind.tokenLabel ++ (['_'] ++ (zeroPadded 4 ordinal ++ sentinelClosing)), by simp [sentinelToken], rfl,
    kind.tokenLabel, _, rfl, ?_, _, _, rfl, rfl, zeroPadded 4 ordinal, _, rfl, ⟨length_zeroPadded small, ?_⟩, rfl⟩
  · exact ⟨(tokenLabel_upper kind).1, all_eq_true.mp (tokenLabel_upper kind).2⟩
  · intro char member
    have digit := isDigit_of_mem_zeroPadded member
    rw [unicode.decimalDigit_ascii char (toNat_lt_of_isDigit digit), digit]

theorem ordinal_eq_of_sentinelToken_eq {kind otherKind : ProtectedKind} {ordinal other : Nat} (small : ordinal < 10000)
    (otherSmall : other < 10000) (same : sentinelToken kind ordinal = sentinelToken otherKind other) : ordinal = other := by
  simp only [sentinelToken, append_assoc, append_cancel_left_eq] at same
  simp only [← append_assoc, append_cancel_right_eq] at same
  exact zeroPadded_injective (append_inj_right' same (by rw [length_zeroPadded small, length_zeroPadded otherSmall]))

end Retonr
