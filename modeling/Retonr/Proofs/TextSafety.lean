import Retonr.Lib.Runs
import Retonr.Types.TextSafety

/-! The text-safety check against the policy it implements: a frozen source is only
ever replaced by itself, and otherwise no invisible run is added or lengthened. -/

namespace Retonr.TextSafety
open Text List

/-- The invisible runs of a text, each with the visible character it hangs on. -/
def runKeys (text : Text) : Multiset (Option Char × Text) := Runs.keyed isRetainedInvisibleCharacter text

def HardUnsafe (text : Text) : Prop := ∃ char ∈ text, isHardUnsafeTextCharacter char = true

/-- The policy, stated without the scan that decides it. -/
def NoSmuggling (source replacement : Text) : Prop :=
  HardUnsafe source ∧ replacement = source ∨
    ¬HardUnsafe source ∧ ¬HardUnsafe replacement ∧ runKeys replacement ≤ runKeys source

theorem takeCarriers_characters (offset : Nat) (text : Text) :
    (takeCarriers offset text).1.map CarrierChar.character = text.takeWhile isRetainedInvisibleCharacter := by
  induction text generalizing offset with
  | nil => rfl
  | cons char rest ih =>
    cases retained : isRetainedInvisibleCharacter char
    · simp [takeCarriers, retained]
    · simp [takeCarriers, retained, ih]

theorem takeCarriers_remaining (offset : Nat) (text : Text) : (takeCarriers offset text).2.2 = text.dropWhile isRetainedInvisibleCharacter := by
  induction text generalizing offset with
  | nil => rfl
  | cons char rest ih =>
    cases retained : isRetainedInvisibleCharacter char
    · simp [takeCarriers, retained]
    · simp [takeCarriers, retained, ih]

theorem takeCarriers_isEmpty (offset : Nat) (text : Text) :
    (takeCarriers offset text).1.isEmpty = (text.takeWhile isRetainedInvisibleCharacter).isEmpty := by
  rw [← takeCarriers_characters offset, isEmpty_map]

theorem carrierRunsFrom_keys (fuel offset : Nat) (text : Text) (enough : text.length ≤ fuel) :
    (carrierRunsFrom fuel offset text).map LocatedRun.key = Runs.keyed isRetainedInvisibleCharacter text := by
  induction fuel generalizing offset text with
  | zero =>
    obtain rfl := eq_nil_of_length_eq_zero (Nat.le_zero.mp enough)
    rfl
  | succ fuel ih =>
    cases text with
    | nil => rfl
    | cons char rest =>
      have shrinks : (rest.dropWhile isRetainedInvisibleCharacter).length ≤ fuel :=
        Nat.le_trans (dropWhile_sublist _).length_le (by simpa using enough)
      cases retained : isRetainedInvisibleCharacter char
      · rw [Runs.keyed_visible _ rest retained]
        simp only [carrierRunsFrom, retained, Bool.false_eq_true, if_false, takeCarriers_isEmpty]
        split
        · rw [takeCarriers_remaining]
          exact ih _ _ shrinks
        · rw [map_cons, takeCarriers_remaining, ih _ _ shrinks]
          simp only [LocatedRun.key, takeCarriers_characters]
      · rw [Runs.keyed_marked _ rest retained]
        have drops : (char :: rest).dropWhile isRetainedInvisibleCharacter = rest.dropWhile isRetainedInvisibleCharacter := by
          simp [retained]
        simp only [carrierRunsFrom, retained, if_true, map_cons, takeCarriers_remaining, drops, ih _ _ shrinks]
        simp only [LocatedRun.key, takeCarriers_characters]

theorem carrierRuns_keys (text : Text) : (carrierRuns text).map LocatedRun.key = Runs.keyed isRetainedInvisibleCharacter text :=
  carrierRunsFrom_keys _ _ _ (Nat.le_refl _)

/-- Consuming succeeds throughout exactly when no key is asked for too often. -/
theorem introducedIn_eq_none_iff (sourceRuns runs : List LocatedRun) (available : CountMap (Option Char × Text)) :
    introducedIn sourceRuns available runs = none ↔
      ∀ key, Multiset.count key (runs.map LocatedRun.key : Multiset (Option Char × Text)) ≤ available.count key := by
  induction runs generalizing available with
  | nil => simp [introducedIn]
  | cons run runs ih =>
    simp only [introducedIn, map_cons, ← Multiset.cons_coe, Multiset.count_cons]
    cases taken : available.consume run.key with
    | none =>
      have missing := (CountMap.consume_eq_none_iff available run.key).mp taken
      simp only [reduceCtorEq, false_iff, not_forall]
      exact ⟨run.key, by simp [missing]⟩
    | some remaining =>
      simp only [ih]
      refine forall_congr' fun key => ?_
      have before := CountMap.count_consume taken key
      omega

theorem firstIntroducedCarrier_eq_none_iff (source candidate : Text) :
    firstIntroducedCarrier source candidate = none ↔ runKeys candidate ≤ runKeys source := by
  simp only [firstIntroducedCarrier, introducedIn_eq_none_iff, CountMap.count_tally, carrierRuns_keys, runKeys,
    Multiset.le_iff_count, ← Multiset.coe_count]

theorem hardUnsafe_iff_any (text : Text) : HardUnsafe text ↔ text.any isHardUnsafeTextCharacter = true := by
  simp [HardUnsafe]

theorem firstHardOffset_eq_none_iff (text : Text) : firstHardOffset text = none ↔ ¬HardUnsafe text := by
  have general : ∀ offset, firstHardOffsetFrom offset text = none ↔ ¬HardUnsafe text := by
    simp only [HardUnsafe]
    induction text with
    | nil => simp [firstHardOffsetFrom]
    | cons char rest ih =>
      intro offset
      cases hard : isHardUnsafeTextCharacter char <;> simp_all [firstHardOffsetFrom]
  exact general 0

theorem zippedDifference_self (offset : Nat) (text : Text) : zippedDifference offset text text = .inr (offset + byteLen text) := by
  induction text generalizing offset with
  | nil => rfl
  | cons char rest ih => simp [zippedDifference, ih, byteLen, Nat.add_assoc]

theorem zippedDifference_prefix {offset compared : Nat} {left right : Text}
    (agree : zippedDifference offset left right = .inr compared) : left <+: right ∨ right <+: left := by
  induction left generalizing offset right with
  | nil => exact Or.inl nil_prefix
  | cons first lefts ih =>
    cases right with
    | nil => exact Or.inr nil_prefix
    | cons second rights =>
      simp only [zippedDifference] at agree
      split at agree
      · cases agree
      next same =>
        obtain rfl := not_not.mp same
        simpa using ih agree

theorem eq_of_prefix_of_byteLen {left right : Text} (leading : left <+: right) (same : byteLen left = byteLen right) : left = right := by
  obtain ⟨rest, rfl⟩ := leading
  have empty : rest = [] := eq_nil_of_byteLen_eq_zero (by rw [byteLen_append] at same; omega)
  simp [empty]

theorem firstDifference_eq_none_iff (left right : Text) : firstDifference left right = none ↔ right = left := by
  constructor
  · intro agree
    simp only [firstDifference] at agree
    split at agree
    · cases agree
    next compared zipped =>
      split at agree
      next same =>
        rcases zippedDifference_prefix zipped with shorter | longer
        · exact (eq_of_prefix_of_byteLen shorter same).symm
        · exact eq_of_prefix_of_byteLen longer same.symm
      · cases agree
  · rintro rfl
    simp [firstDifference, zippedDifference_self]

theorem replacementPreservesTextSafety_iff (source replacement : Text) :
    replacementPreservesTextSafety source replacement = true ↔ NoSmuggling source replacement := by
  simp only [replacementPreservesTextSafety, Option.isNone_iff_eq_none, firstTextSafetyFault, NoSmuggling,
    hardUnsafe_iff_any source]
  by_cases frozen : source.any isHardUnsafeTextCharacter = true
  · simp [frozen, firstDifference_eq_none_iff]
  · have clear := firstHardOffset_eq_none_iff replacement
    simp only [frozen, Bool.false_eq_true, if_false, false_and, not_false_eq_true, true_and, false_or]
    split
    next offset found => simp [found] at clear ⊢; simp [clear]
    next absent => simp [clear.mp absent, firstIntroducedCarrier_eq_none_iff]

theorem NoSmuggling.refl (text : Text) : NoSmuggling text text := by
  by_cases frozen : HardUnsafe text
  · exact Or.inl ⟨frozen, rfl⟩
  · exact Or.inr ⟨frozen, frozen, le_rfl⟩

theorem NoSmuggling.trans {first second third : Text} (earlier : NoSmuggling first second)
    (later : NoSmuggling second third) : NoSmuggling first third := by
  rcases earlier with ⟨frozen, rfl⟩ | ⟨clear, clearSecond, contained⟩
  · exact later
  · rcases later with ⟨frozen, _⟩ | ⟨_, clearThird, containedLater⟩
    · exact absurd frozen clearSecond
    · exact Or.inr ⟨clear, clearThird, containedLater.trans contained⟩

theorem NoSmuggling.count_le {source replacement : Text} (safe : NoSmuggling source replacement) {char : Char}
    (retained : isRetainedInvisibleCharacter char = true) : replacement.count char ≤ source.count char := by
  rcases safe with ⟨_, rfl⟩ | ⟨_, _, contained⟩
  · exact Nat.le_refl _
  · exact Runs.count_le_of_keyed_le _ contained retained

/-- The check decides the policy, bounds every invisible mark, and composes along chains of edits. -/
theorem text_safety_is_no_smuggling : (∀ source replacement, replacementPreservesTextSafety source replacement = true ↔
      (HardUnsafe source ∧ replacement = source) ∨ (¬HardUnsafe source ∧ ¬HardUnsafe replacement ∧ runKeys replacement ≤ runKeys source)) ∧
    (∀ source replacement, replacementPreservesTextSafety source replacement = true →
      ∀ char, isRetainedInvisibleCharacter char = true → replacement.count char ≤ source.count char) ∧
    (∀ text, replacementPreservesTextSafety text text = true) ∧ (∀ first second third, replacementPreservesTextSafety first second = true →
      replacementPreservesTextSafety second third = true → replacementPreservesTextSafety first third = true) := by
  refine ⟨replacementPreservesTextSafety_iff, ?_, ?_, ?_⟩
  · intro source replacement safe char retained
    exact ((replacementPreservesTextSafety_iff source replacement).mp safe).count_le retained
  · intro text
    exact (replacementPreservesTextSafety_iff text text).mpr (NoSmuggling.refl text)
  · intro first second third earlier later
    rw [replacementPreservesTextSafety_iff] at earlier later ⊢
    exact earlier.trans later

theorem text_safety_is_no_smuggling_chain : replacementPreservesTextSafety ['c', 'o', '\u00AD', 'o', 'p'] ['c', 'o', '\u00AD'] = true ∧
      replacementPreservesTextSafety ['c', 'o', '\u00AD'] ['c', 'o'] = true ∧
      replacementPreservesTextSafety ['c', 'o', '\u00AD', 'o', 'p'] ['c', 'o'] = true :=
  ⟨rfl, rfl,
    text_safety_is_no_smuggling.2.2.2 _ ['c', 'o', '\u00AD'] _ rfl rfl⟩

end Retonr.TextSafety
