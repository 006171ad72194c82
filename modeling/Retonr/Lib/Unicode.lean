import Retonr.Lib.Text

/-! Character classes. The large Unicode tables are a parameter that is pinned down on
ASCII; the small ones are spelled out. -/

namespace Retonr

structure Unicode where
  (decimalDigit alphanumeric : Char → Bool)
  lowercase : Char → Text
  decimalDigit_ascii : ∀ char : Char, char.toNat < 128 → decimalDigit char = char.isDigit
  alphanumeric_ascii : ∀ char : Char, char.toNat < 128 → alphanumeric char = char.isAlphanum
  lowercase_ascii : ∀ char : Char, char.toNat < 128 → lowercase char = [char.toLower]

namespace Unicode

/-- The tables cut off after ASCII. -/
def ascii : Unicode where
  decimalDigit := Char.isDigit
  alphanumeric := Char.isAlphanum
  lowercase char := [char.toLower]
  decimalDigit_ascii _ _ := rfl
  alphanumeric_ascii _ _ := rfl
  lowercase_ascii _ _ := rfl

def whiteSpace (char : Char) : Bool :=
  let code := char.toNat
  (0x09 ≤ code && code ≤ 0x0D) || code == 0x20 || code == 0x85 || code == 0xA0 || code == 0x1680 ||
    (0x2000 ≤ code && code ≤ 0x200A) || code == 0x2028 || code == 0x2029 || code == 0x202F || code == 0x205F ||
    code == 0x3000

theorem toNat_of_isAlpha {char : Char} (alpha : char.isAlpha = true) :
    65 ≤ char.toNat ∧ char.toNat ≤ 90 ∨ 97 ≤ char.toNat ∧ char.toNat ≤ 122 := by
  simp only [Char.isAlpha, Char.isUpper, Char.isLower, Bool.or_eq_true, Bool.and_eq_true, decide_eq_true_eq,
    UInt32.le_iff_toNat_le, Char.reduceVal] at alpha
  exact alpha

theorem toNat_of_isDigit {char : Char} (digit : char.isDigit = true) : 48 ≤ char.toNat ∧ char.toNat ≤ 57 := by
  simp only [Char.isDigit, Bool.and_eq_true, decide_eq_true_eq, UInt32.le_iff_toNat_le, Char.reduceVal] at digit
  exact digit

/-- Below 128 the decimal digits are the ten of ASCII. -/
theorem decimalDigit_range (unicode : Unicode) {char : Char} (decimal : unicode.decimalDigit char = true) :
    48 ≤ char.toNat ∧ char.toNat ≤ 57 ∨ 128 ≤ char.toNat := by
  by_cases low : char.toNat < 128
  · rw [unicode.decimalDigit_ascii char low] at decimal
    exact Or.inl (toNat_of_isDigit decimal)
  · exact Or.inr (Nat.le_of_not_lt low)

end Unicode

end Retonr
