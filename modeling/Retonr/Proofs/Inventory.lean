import Retonr.Adapter.Inventory
import Retonr.Proofs.TextAdapter

/-! The inventory and the safety policy classify characters independently. They differ on
one code point, U+2065: the policy freezes a text that has it and the inventory counts
it in no class. -/

namespace Retonr
open Text TextSafety List

/-- The characters the safety policy acts on: those that freeze a text and those that may only be retained. -/
def actedOn (char : Char) : Bool := isHardUnsafeTextCharacter char || isRetainedInvisibleCharacter char

/-- The code point that the policy freezes and no class of the inventory claims. -/
def uncounted : Char := '\u2065'

def isLineOrTab (char : Char) : Bool := char == '\t' || char == '\n' || char == '\r'

theorem controlClass_isSome (char : Char) : (controlClass char).isSome = (!isLineOrTab char &&
      (isBidiMark char || isVariationSelector char || isZeroWidthMark char || isControl char || isTagCharacter char ||
        isOtherInvisibleMark char)) := by
  have delete : char = '\x7f' → isControl char = true := fun same => by rw [same]; rfl
  have upper : 0x80 ≤ char.toNat ∧ char.toNat ≤ 0x9F → isControl char = true := fun range => by
    simp [isControl, range.2, show 0x7F ≤ char.toNat by omega]
  unfold controlClass isLineOrTab
  grind

private theorem hard_of_bidi {char : Char} (bidi : isBidiMark char = true) : isHardUnsafeTextCharacter char = true := by
  simp only [isBidiMark, isHardUnsafeTextCharacter, Bool.or_eq_true, Bool.and_eq_true, beq_iff_eq, decide_eq_true_eq] at bidi ⊢
  omega

private theorem classes_of_hard {char : Char} (hard : isHardUnsafeTextCharacter char = true) (counted : char ≠ uncounted) :
    isControl char = true ∧ isLineOrTab char = false ∨ isBidiMark char = true ∨ isZeroWidthMark char = true ∨
      isOtherInvisibleMark char = true := by
  have elsewhere : char.toNat ≠ 0x2065 := fun same => counted (Char.toNat_inj.mp same)
  simp only [isHardUnsafeTextCharacter, Bool.or_eq_true, Bool.and_eq_true, Bool.not_eq_true', beq_iff_eq, decide_eq_true_eq] at hard
  rcases hard with control | range
  · refine Or.inl ⟨control.1, ?_⟩
    simpa [isLineOrTab, Bool.or_assoc, Bool.or_comm, Bool.or_left_comm] using control.2
  · simp only [isBidiMark, isZeroWidthMark, isOtherInvisibleMark, Bool.or_eq_true, Bool.and_eq_true, beq_iff_eq, decide_eq_true_eq]
    omega

/-- A mark that is no control is no line break or tab either. -/
private theorem not_lineOrTab {char : Char} (line : isLineOrTab char = true) :
    isHardUnsafeTextCharacter char = false ∧ isBidiMark char = false ∧ isVariationSelector char = false ∧
      isZeroWidthMark char = false ∧ isTagCharacter char = false ∧ isOtherInvisibleMark char = false := by
  simp only [isLineOrTab, Bool.or_eq_true, beq_iff_eq] at line
  rcases line with (rfl | rfl) | rfl <;> decide

/-- The two classifications agree on every other character. -/
theorem controlClass_isSome_iff (char : Char) : (controlClass char).isSome = true ↔ actedOn char = true ∧ char ≠ uncounted := by
  have missed : (controlClass uncounted).isSome = false := by decide
  have bidi := @hard_of_bidi char
  have hard := @classes_of_hard char
  have line := @not_lineOrTab char
  have control : isControl char = true → isLineOrTab char = false → isHardUnsafeTextCharacter char = true := by
    intro control other
    simp_all [isHardUnsafeTextCharacter, isLineOrTab]
  rw [controlClass_isSome] at missed
  rw [controlClass_isSome]
  unfold actedOn isRetainedInvisibleCharacter
  grind

namespace ControlCounts

@[simp] theorem total_increment (counts : ControlCounts) (kind : ControlClass) : (counts.increment kind).total = counts.total + 1 := by
  cases kind <;> simp only [increment, total] <;> omega

private theorem total_foldl (text : Text) (counts : ControlCounts) :
    (text.foldl (fun counts char => (controlClass char).elim counts counts.increment) counts).total =
      counts.total + text.countP fun char => (controlClass char).isSome := by
  induction text generalizing counts with
  | nil => simp
  | cons char rest ih =>
    rw [foldl_cons, ih, countP_cons]
    cases controlClass char with
    | none => simp
    | some kind =>
      simp only [Option.elim_some, total_increment, Option.isSome_some, if_true]
      omega

theorem total_countControls (text : Text) : (countControls text).total = text.countP fun char => (controlClass char).isSome := by
  have folded := total_foldl text {}
  rwa [show total {} = 0 from rfl, Nat.zero_add] at folded

end ControlCounts

/-- Every character the policy acts on is counted once, the uncounted ones apart. -/
theorem countControls_total_add (text : Text) : (countControls text).total + text.count uncounted = text.countP actedOn := by
  rw [ControlCounts.total_countControls]
  induction text with
  | nil => rfl
  | cons char rest ih =>
    have counted := controlClass_isSome_iff char
    have acted : actedOn uncounted = true := by decide
    rw [countP_cons, countP_cons, count_cons]
    by_cases same : char = uncounted
    · subst same
      simp_all
      omega
    · by_cases frozen : actedOn char = true
      · simp_all
        omega
      · simp_all

theorem inventory_eq_ok {hasUtf8Bom : Bool} {text : Text} (small : (TextAdapter.bomBytes hasUtf8Bom ++ encode text).length ≤ maxPlainTextBytes)
    (unmarked : hasUtf8Bom = false → text.head? ≠ some '\uFEFF') :
    ∃ report, TextAdapter.inventory (TextAdapter.bomBytes hasUtf8Bom ++ encode text) = .ok report ∧ report.encoding = .utf8 ∧
      report.controls = countControls text := by
  have wide := TextAdapter.not_utf16 hasUtf8Bom text
  simp only [Bool.or_eq_false_iff] at wide
  simp only [TextAdapter.inventory, if_neg (Nat.not_lt.mpr small), wide.1, wide.2, Bool.false_eq_true, if_false,
    TextAdapter.marked_bytes unmarked, TextAdapter.drop_mark, decode_encode]
  exact ⟨_, rfl, rfl, rfl⟩

/-- The inventory counts exactly what the policy acts on in every text without U+2065, and in no other; and a frozen
text shows a count exactly when it has anything else the policy acts on. -/
theorem inventory_counts_acted_iff {hasUtf8Bom : Bool} {text : Text}
    (small : (TextAdapter.bomBytes hasUtf8Bom ++ encode text).length ≤ maxPlainTextBytes)
    (unmarked : hasUtf8Bom = false → text.head? ≠ some '\uFEFF') :
    ∃ report, TextAdapter.inventory (TextAdapter.bomBytes hasUtf8Bom ++ encode text) = .ok report ∧ report.encoding = .utf8 ∧
      (report.controls.total = text.countP (fun char => isHardUnsafeTextCharacter char || isRetainedInvisibleCharacter char) ↔ '\u2065' ∉ text) ∧
      (HardUnsafe text → (report.controls.total ≠ 0 ↔
        ∃ char ∈ text, (isHardUnsafeTextCharacter char || isRetainedInvisibleCharacter char) = true ∧ char ≠ '\u2065')) := by
  obtain ⟨report, reported, encoding, controls⟩ := inventory_eq_ok small unmarked
  have tally := countControls_total_add text
  refine ⟨report, reported, encoding, ?_, fun _ => ?_⟩
  · rw [controls, show (fun char => isHardUnsafeTextCharacter char || isRetainedInvisibleCharacter char) = actedOn from rfl,
      show ('\u2065' : Char) = uncounted from rfl, ← count_eq_zero]
    omega
  · rw [controls, ControlCounts.total_countControls, ← Nat.pos_iff_ne_zero, countP_pos_iff]
    exact exists_congr fun char => and_congr_right fun _ => controlClass_isSome_iff char

theorem inventory_counts_acted_iff_joiner :
    ∃ report, TextAdapter.inventory (encode ['a', '\u200D', 'b']) = .ok report ∧ report.controls.total = 1 := by
  obtain ⟨report, reported, -, counted, -⟩ :=
    @inventory_counts_acted_iff false ['a', '\u200D', 'b'] (by decide) (by decide)
  exact ⟨report, reported, counted.mpr (by decide)⟩

/-- A frozen text that shows no control at all. -/
theorem inventory_misses_frozen :
    ∃ report, TextAdapter.inventory (encode ['\u2065']) = .ok report ∧ report.controls = {} ∧ HardUnsafe ['\u2065'] ∧
      ['\u2065'].countP (fun char => isHardUnsafeTextCharacter char || isRetainedInvisibleCharacter char) = 1 := by
  obtain ⟨report, reported, -, controls⟩ := @inventory_eq_ok false ['\u2065'] (by decide) (by decide)
  exact ⟨report, reported, controls, ⟨'\u2065', by decide, by decide⟩, by decide⟩

end Retonr
