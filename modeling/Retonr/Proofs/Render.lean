import Retonr.Cli.Render

/-! The terminal sees nothing it would act on, and a reader of the report sees no difference. The scan
follows the tokens of the text: outside a string it copies, inside one it keeps what the body spells. -/

namespace Retonr.Render
open Text List TextSafety

/-- No character that the policy for texts names as unsafe or invisible, and no control but the line feed. -/
def Displayable (char : Char) : Prop :=
  isHardUnsafeTextCharacter char = false ∧ isRetainedInvisibleCharacter char = false ∧ char ≠ '\r' ∧ char ≠ '\t'

variable {char : Char}

theorem displayable_of_kept (kept : mustEscapeForTerminal char = false) : Displayable char := by
  by_cases feed : char = '\n'
  · subst feed
    exact ⟨rfl, rfl, by decide, by decide⟩
  · have code (other : Char) : char = other ↔ char.toNat = other.toNat := Char.toNat_inj.symm
    have carriage : '\r'.toNat = 13 := rfl
    have tab : '\t'.toNat = 9 := rfl
    have control : isControl char = false := by
      by_contra control
      rw [mustEscapeForTerminal, if_neg feed, if_pos (by simpa using control)] at kept
      cases kept
    rw [mustEscapeForTerminal, if_neg feed, control] at kept
    simp only [isControl, Bool.false_eq_true, if_false, Bool.or_eq_false_iff, Bool.and_eq_false_iff, decide_eq_false_iff_not,
      beq_eq_false_iff_ne] at kept control
    have hard : isHardUnsafeTextCharacter char = false := by
      simp only [isHardUnsafeTextCharacter, isControl, Bool.or_eq_false_iff, Bool.and_eq_false_iff,
        decide_eq_false_iff_not, beq_eq_false_iff_ne]
      omega
    refine ⟨hard, ?_, ?_, ?_⟩
    · simp only [isRetainedInvisibleCharacter, isVariationSelector, isZeroWidthMark,
        isTagCharacter, isOtherInvisibleMark, Bool.or_eq_false_iff, Bool.and_eq_false_iff, decide_eq_false_iff_not,
        beq_eq_false_iff_ne]
      omega
    · rw [ne_eq, code, carriage]
      omega
    · rw [ne_eq, code, tab]
      omega

theorem kept_of_ascii (visible : 0x20 ≤ char.toNat) (ascii : char.toNat < 0x7F) : mustEscapeForTerminal char = false := by
  have code : char ≠ '\n' := by
    rintro rfl
    exact absurd visible (by decide)
  have control : isControl char = false := by
    simp only [isControl, Bool.or_eq_false_iff, Bool.and_eq_false_iff, decide_eq_false_iff_not]
    omega
  rw [mustEscapeForTerminal, if_neg code, control]
  simp only [Bool.false_eq_true, if_false, Bool.or_eq_false_iff, Bool.and_eq_false_iff, decide_eq_false_iff_not, beq_eq_false_iff_ne]
  omega

variable {unit : Nat}

theorem codeUnit_unitEscape (small : unit < 0x10000) :
    Json.codeUnit (Json.hexDigit (unit / 0x1000)) (Json.hexDigit (unit / 0x100 % 0x10)) (Json.hexDigit (unit / 0x10 % 0x10))
      (Json.hexDigit (unit % 0x10)) = some unit := by
  have digit : ∀ value < 16, Json.hexValue (Json.hexDigit value) = some value := by decide
  rw [Json.codeUnit, digit _ (by omega), digit _ (by omega), digit _ (by omega), digit _ (by omega)]
  simp only [Option.bind_eq_bind, Option.bind_some, Option.some.injEq]
  omega

theorem kept_of_mem_unitEscape (small : unit < 0x10000) (member : char ∈ unitEscape unit) : mustEscapeForTerminal char = false := by
  have digit : ∀ value < 16, mustEscapeForTerminal (Json.hexDigit value) = false := by decide
  simp only [unitEscape, mem_cons, not_mem_nil, or_false] at member
  rcases member with rfl | rfl | rfl | rfl | rfl | rfl
  · decide
  · decide
  · exact digit _ (by omega)
  · exact digit _ (by omega)
  · exact digit _ (by omega)
  · exact digit _ (by omega)

theorem appendJsonUnicodeEscape_eq (output : Text) (char : Char) :
    ∃ spelling, appendJsonUnicodeEscape output char = output ++ spelling ∧ (∀ kept ∈ spelling, mustEscapeForTerminal kept = false) ∧
      ∀ {body value : Text}, Json.Escapes body value → Json.Escapes (spelling ++ body) (char :: value) := by
  have range := Json.char_toNat_range char
  by_cases narrow : char.toNat < 0x10000
  · refine ⟨unitEscape char.toNat, ?_, fun kept => kept_of_mem_unitEscape narrow, ?_⟩
    · simp [appendJsonUnicodeEscape, encodeUtf16, narrow]
    · intro body value rest
      exact .unit (codeUnit_unitEscape narrow) rest
  · have high : 0xD800 + (char.toNat - 0x10000) / 0x400 < 0x10000 := by omega
    have low : 0xDC00 + (char.toNat - 0x10000) % 0x400 < 0x10000 := by omega
    refine ⟨unitEscape (0xD800 + (char.toNat - 0x10000) / 0x400) ++ unitEscape (0xDC00 + (char.toNat - 0x10000) % 0x400), ?_, ?_, ?_⟩
    · simp only [appendJsonUnicodeEscape, encodeUtf16, narrow, if_false, foldl_cons, foldl_nil, append_assoc]
    · intro kept member
      rcases mem_append.mp member with first | second
      · exact kept_of_mem_unitEscape high first
      · exact kept_of_mem_unitEscape low second
    · intro body value rest
      exact .pair (by omega) (codeUnit_unitEscape high) (codeUnit_unitEscape low) rest

variable {text : Text}

/-- Outside a string every character is copied, and all but a quote leave the scan there. -/
theorem foldl_step_outside (unquoted : ∀ char ∈ text, char ≠ '\x22') (output : Text) :
    text.foldl Escaper.step ⟨output, false, false⟩ = ⟨output ++ text, false, false⟩ := by
  induction text generalizing output with
  | nil => simp
  | cons char text ih =>
    obtain ⟨other, others⟩ := forall_mem_cons.mp unquoted
    rw [foldl_cons, show Escaper.step ⟨output, false, false⟩ char = ⟨output ++ [char], false, false⟩ by simp [Escaper.step, other],
      ih others, append_assoc, singleton_append]

theorem foldl_step_inside (plain : ∀ char ∈ text, mustEscapeForTerminal char = false ∧ char ≠ '\x22' ∧ char ≠ '\\') (output : Text) :
    text.foldl Escaper.step ⟨output, true, false⟩ = ⟨output ++ text, true, false⟩ := by
  induction text generalizing output with
  | nil => simp
  | cons char text ih =>
    obtain ⟨⟨kept, unquoted, unescaped⟩, others⟩ := forall_mem_cons.mp plain
    rw [foldl_cons, show Escaper.step ⟨output, true, false⟩ char = ⟨output ++ [char], true, false⟩ by
      simp [Escaper.step, kept, unquoted, unescaped], ih others, append_assoc, singleton_append]

theorem foldl_step_backslash (letter : Char) (output : Text) :
    ['\\', letter].foldl Escaper.step ⟨output, true, false⟩ = ⟨output ++ ['\\', letter], true, false⟩ := by
  simp [Escaper.step]

/-- Nothing in the text has to be escaped for the terminal. -/
abbrev Kept (text : Text) : Prop := ∀ char ∈ text, mustEscapeForTerminal char = false

theorem Kept.append {first second : Text} (left : Kept first) (right : Kept second) : Kept (first ++ second) := by
  intro char member
  rcases mem_append.mp member with before | after
  · exact left char before
  · exact right char after

theorem kept_of_shortEscape {letter : Char} (known : Json.shortEscape letter = some char) : Kept ['\\', letter] := by
  have visible : mustEscapeForTerminal letter = false := by
    unfold Json.shortEscape at known
    split at known
    all_goals first | decide | cases known
  simp only [Kept, mem_cons, not_mem_nil, or_false, forall_eq_or_imp, forall_eq]
  exact ⟨by decide, visible⟩

theorem plain_of_hexValue {value : Nat} (known : Json.hexValue char = some value) :
    mustEscapeForTerminal char = false ∧ char ≠ '\x22' ∧ char ≠ '\\' := by
  have bounds : 0x30 ≤ char.toNat ∧ char.toNat ≤ 0x66 ∧ char ≠ '\\' := by
    unfold Json.hexValue at known
    split at known
    next range => exact ⟨range.1, Nat.le_trans range.2 (by decide), by rintro rfl; exact absurd range.2 (by decide)⟩
    split at known
    next range => exact ⟨Nat.le_trans (by decide) range.1, range.2, by rintro rfl; exact absurd range.1 (by decide)⟩
    split at known
    next range => exact ⟨Nat.le_trans (by decide) range.1, Nat.le_trans range.2 (by decide), by rintro rfl; exact absurd range.2 (by decide)⟩
    next => cases known
  refine ⟨kept_of_ascii (by omega) (by omega), ?_, bounds.2.2⟩
  rintro rfl
  exact absurd bounds.1 (by decide)

theorem plain_of_codeUnit {a b c d : Char} (known : Json.codeUnit a b c d = some unit) :
    ∀ char ∈ [a, b, c, d], mustEscapeForTerminal char = false ∧ char ≠ '\x22' ∧ char ≠ '\\' := by
  simp only [Json.codeUnit, Option.bind_eq_bind, Option.bind_eq_some_iff] at known
  obtain ⟨_, first, _, second, _, third, _, fourth, -⟩ := known
  simp only [mem_cons, not_mem_nil, or_false, forall_eq_or_imp, forall_eq]
  exact ⟨plain_of_hexValue first, plain_of_hexValue second, plain_of_hexValue third, plain_of_hexValue fourth⟩

theorem foldl_step_unit {a b c d : Char} (known : Json.codeUnit a b c d = some unit) (output : Text) :
    ['\\', 'u', a, b, c, d].foldl Escaper.step ⟨output, true, false⟩ = ⟨output ++ ['\\', 'u', a, b, c, d], true, false⟩ ∧
      Kept ['\\', 'u', a, b, c, d] := by
  have digits := plain_of_codeUnit known
  constructor
  · have split : ['\\', 'u', a, b, c, d] = ['\\', 'u'] ++ [a, b, c, d] := rfl
    rw [split, foldl_append, foldl_step_backslash, foldl_step_inside digits, append_assoc]
  · have start : Kept ['\\', 'u'] := all_iff_forall_prop.mp rfl
    exact start.append fun char member => (digits char member).1

/-- The body of a string comes out as one that spells the same, in characters that may be shown. -/
theorem foldl_step_body {body value : Text} (spelled : Json.Escapes body value) (output : Text) :
    ∃ escaped, body.foldl Escaper.step ⟨output, true, false⟩ = ⟨output ++ escaped, true, false⟩ ∧ Kept escaped ∧ Json.Escapes escaped value := by
  induction spelled generalizing output with
  | nil => exact ⟨[], by simp, forall_mem_nil _, .nil⟩
  | @plain char body value visible unquoted unescaped _ ih =>
    by_cases effect : mustEscapeForTerminal char = true
    · obtain ⟨spelling, appended, shown, spells⟩ := appendJsonUnicodeEscape_eq output char
      obtain ⟨escaped, run, kept, rest⟩ := ih (output ++ spelling)
      refine ⟨spelling ++ escaped, ?_, Kept.append shown kept, spells rest⟩
      have step : Escaper.step ⟨output, true, false⟩ char = ⟨output ++ spelling, true, false⟩ := by
        simp [Escaper.step, effect, unquoted, unescaped, appended]
      rw [foldl_cons, step, run, append_assoc]
    · have plain : mustEscapeForTerminal char = false := by simpa using effect
      obtain ⟨escaped, run, kept, rest⟩ := ih (output ++ [char])
      refine ⟨char :: escaped, ?_, forall_mem_cons.mpr ⟨plain, kept⟩, .plain visible unquoted unescaped rest⟩
      have step : Escaper.step ⟨output, true, false⟩ char = ⟨output ++ [char], true, false⟩ := by
        simp [Escaper.step, plain, unquoted, unescaped]
      rw [foldl_cons, step, run, append_assoc, singleton_append]
  | @short letter char body value known _ ih =>
    obtain ⟨escaped, run, kept, rest⟩ := ih (output ++ ['\\', letter])
    refine ⟨['\\', letter] ++ escaped, ?_, (kept_of_shortEscape known).append kept, .short known rest⟩
    have split : '\\' :: letter :: body = ['\\', letter] ++ body := rfl
    rw [split, foldl_append, foldl_step_backslash, run, append_assoc]
  | @unit a b c d char body value known _ ih =>
    obtain ⟨step, shown⟩ := foldl_step_unit known output
    obtain ⟨escaped, run, kept, rest⟩ := ih (output ++ ['\\', 'u', a, b, c, d])
    refine ⟨['\\', 'u', a, b, c, d] ++ escaped, ?_, shown.append kept, .unit known rest⟩
    have split : '\\' :: 'u' :: a :: b :: c :: d :: body = ['\\', 'u', a, b, c, d] ++ body := rfl
    rw [split, foldl_append, step, run, append_assoc]
  | @pair a b c d e f g h char body value wide high low _ ih =>
    obtain ⟨first, shown⟩ := foldl_step_unit high output
    obtain ⟨second, shownToo⟩ := foldl_step_unit low (output ++ ['\\', 'u', a, b, c, d])
    obtain ⟨escaped, run, kept, rest⟩ := ih (output ++ ['\\', 'u', a, b, c, d] ++ ['\\', 'u', e, f, g, h])
    refine ⟨['\\', 'u', a, b, c, d] ++ (['\\', 'u', e, f, g, h] ++ escaped), ?_, shown.append (shownToo.append kept), .pair wide high low rest⟩
    have split : '\\' :: 'u' :: a :: b :: c :: d :: '\\' :: 'u' :: e :: f :: g :: h :: body =
        ['\\', 'u', a, b, c, d] ++ (['\\', 'u', e, f, g, h] ++ body) := rfl
    rw [split, foldl_append, first, foldl_append, second, run, append_assoc, append_assoc]

theorem plain_of_isWordChar (letter : Json.isWordChar char = true) : mustEscapeForTerminal char = false ∧ char ≠ '\x22' := by
  have unlike : char ≠ '\x22' := by
    rintro rfl
    exact absurd letter (by decide)
  simp only [Json.isWordChar, Bool.or_eq_true, beq_iff_eq] at letter
  rcases letter with ((alphanumeric | rfl) | rfl) | rfl
  · have bounds : 0x20 ≤ char.val.toNat ∧ char.val.toNat < 0x7F := by
      simp only [Char.isAlphanum, Char.isAlpha, Char.isUpper, Char.isLower, Char.isDigit, Bool.or_eq_true, Bool.and_eq_true, decide_eq_true_eq,
        ge_iff_le, UInt32.le_iff_toNat_le] at alphanumeric
      change ((65 ≤ _ ∧ _ ≤ 90) ∨ (97 ≤ _ ∧ _ ≤ 122)) ∨ (48 ≤ _ ∧ _ ≤ 57) at alphanumeric
      omega
    exact ⟨kept_of_ascii bounds.1 bounds.2, unlike⟩
  · exact ⟨by decide, unlike⟩
  · exact ⟨by decide, unlike⟩
  · exact ⟨by decide, unlike⟩

theorem isBlank_of_isLayout (space : isLayout char = true) : Json.isBlank char = true := by
  simp only [isLayout, Bool.or_eq_true, beq_iff_eq] at space
  rcases space with rfl | rfl <;> rfl

theorem foldl_step_before {segment escaped : Text} {output : Text} (plain : ∀ char ∈ segment, mustEscapeForTerminal char = false ∧ char ≠ '\x22')
    (run : text.foldl Escaper.step ⟨output ++ segment, false, false⟩ = ⟨output ++ segment ++ escaped, false, false⟩) (kept : Kept escaped) :
    (segment ++ text).foldl Escaper.step ⟨output, false, false⟩ = ⟨output ++ (segment ++ escaped), false, false⟩ ∧ Kept (segment ++ escaped) := by
  constructor
  · rw [foldl_append, foldl_step_outside fun char member => (plain char member).2, run, append_assoc]
  · exact Kept.append (fun char member => (plain char member).1) kept

/-- The whole text comes out with the tokens it had. -/
theorem foldl_step_tokens {tokens : List Json.Token} (spelled : Json.Tokens isLayout text tokens) (output : Text) :
    ∃ escaped, text.foldl Escaper.step ⟨output, false, false⟩ = ⟨output ++ escaped, false, false⟩ ∧ Kept escaped ∧
      escaped.head? = text.head? ∧ Json.Tokens Json.isBlank escaped tokens := by
  induction spelled generalizing output with
  | nil => exact ⟨[], by simp, forall_mem_nil _, rfl, .nil⟩
  | @blank char text tokens space _ ih =>
    obtain ⟨escaped, run, kept, -, rest⟩ := ih (output ++ [char])
    have plain : ∀ other ∈ [char], mustEscapeForTerminal other = false ∧ other ≠ '\x22' := by
      simp only [isLayout, Bool.or_eq_true, beq_iff_eq] at space
      rcases space with rfl | rfl <;> exact all_iff_forall_prop.mp rfl
    obtain ⟨whole, shown⟩ := foldl_step_before plain run kept
    exact ⟨[char] ++ escaped, whole, shown, rfl, .blank (isBlank_of_isLayout space) rest⟩
  | @mark text tokens mark _ ih =>
    obtain ⟨escaped, run, kept, -, rest⟩ := ih (output ++ [mark.char])
    have plain : ∀ other ∈ [mark.char], mustEscapeForTerminal other = false ∧ other ≠ '\x22' := by
      cases mark <;> exact all_iff_forall_prop.mp rfl
    obtain ⟨whole, shown⟩ := foldl_step_before plain run kept
    exact ⟨[mark.char] ++ escaped, whole, shown, rfl, .mark mark rest⟩
  | @string body value text tokens spelled _ ih =>
    obtain ⟨inner, inside, shown, same⟩ := foldl_step_body spelled (output ++ ['\x22'])
    obtain ⟨escaped, run, kept, -, rest⟩ := ih (output ++ ['\x22'] ++ inner ++ ['\x22'])
    have quote : Kept ['\x22'] := all_iff_forall_prop.mp rfl
    refine ⟨'\x22' :: (inner ++ '\x22' :: escaped), ?_, quote.append (shown.append (quote.append kept)), rfl, .string same rest⟩
    have opens : Escaper.step ⟨output, false, false⟩ '\x22' = ⟨output ++ ['\x22'], true, false⟩ := rfl
    have closes : Escaper.step ⟨output ++ ['\x22'] ++ inner, true, false⟩ '\x22' = ⟨output ++ ['\x22'] ++ inner ++ ['\x22'], false, false⟩ := rfl
    rw [foldl_cons, opens, foldl_append, inside, foldl_cons, closes, run]
    simp
  | @word spelling text tokens filled inside ended _ ih =>
    obtain ⟨escaped, run, kept, head, rest⟩ := ih (output ++ spelling)
    obtain ⟨whole, shown⟩ := foldl_step_before (fun char member => plain_of_isWordChar (inside char member)) run kept
    refine ⟨spelling ++ escaped, whole, shown, ?_, .word filled inside (head ▸ ended) rest⟩
    rw [List.head?_append_of_ne_nil _ filled, List.head?_append_of_ne_nil _ filled]

variable {Report Fault : Type}

/-- A report for the terminal decodes to the value of the report, and shows no character that could act on the terminal. -/
theorem safe_pretty_json_keeps_values (printer : PrettyPrinter Report Fault) (decoder : Json.Decoder) {report : Report} {encoded : Text}
    (printed : printer.toStringPretty report = .ok encoded) :
    ∃ text value, toSafePrettyJson printer report = .ok (encode text) ∧ decoder.decode (encode encoded) = some value ∧
      decoder.decode (encode text) = some value ∧ ∀ char ∈ text, isHardUnsafeTextCharacter char = false ∧
        isRetainedInvisibleCharacter char = false ∧ char ≠ '\r' ∧ char ≠ '\t' := by
  obtain ⟨value, formed, spelled⟩ := printer.prints printed
  obtain ⟨escaped, run, kept, -, same⟩ := foldl_step_tokens spelled []
  refine ⟨escaped, value, ?_, decoder.conforms ⟨formed, spelled.mono fun _ => isBlank_of_isLayout⟩, decoder.conforms ⟨formed, same⟩, ?_⟩
  · rw [toSafePrettyJson, printed, Except.map, escapeJsonForDisplay, run, nil_append]
  · intro char member
    exact displayable_of_kept (kept char member)

/-- A printer of single texts. -/
def textPrinter : PrettyPrinter Text Fault where
  toStringPretty value := .ok (Json.string value)
  prints := by
    rintro value _ ⟨⟩
    refine ⟨.string value, trivial, ?_⟩
    rw [Json.string, append_assoc]
    exact .string (Json.Escapes.escape value) .nil

theorem safe_pretty_json_keeps_values_bidi : ∃ text value, toSafePrettyJson (@textPrinter Empty) [Char.ofNat 0x202E] = .ok (encode text) ∧
      Json.Decoder.strict.decode (encode (Json.string [Char.ofNat 0x202E])) = some value ∧ Json.Decoder.strict.decode (encode text) = some value ∧
      ∀ char ∈ text, isHardUnsafeTextCharacter char = false ∧ isRetainedInvisibleCharacter char = false ∧
        char ≠ '\r' ∧ char ≠ '\t' :=
  safe_pretty_json_keeps_values textPrinter Json.Decoder.strict rfl

end Retonr.Render
