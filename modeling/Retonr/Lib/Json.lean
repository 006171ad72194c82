import Retonr.Lib.Text

/-! The compact JSON text of a record: no white space, fields in declaration order, and
the shortest escape of every character that needs one. -/

namespace Retonr.Json
open Text List

def hexDigit (value : Nat) : Char := if value < 10 then Char.ofNat (48 + value) else Char.ofNat (87 + value)

def escape (char : Char) : Text :=
  match char.toNat with
  | 0x22 => ['\\', '\x22']
  | 0x5C => ['\\', '\\']
  | 0x08 => ['\\', 'b']
  | 0x09 => ['\\', 't']
  | 0x0A => ['\\', 'n']
  | 0x0C => ['\\', 'f']
  | 0x0D => ['\\', 'r']
  | value => if value < 0x20 then "\\u00".toList ++ [hexDigit (value / 16), hexDigit (value % 16)] else [char]

def string (value : Text) : Text := ['\x22'] ++ value.flatMap escape ++ ['\x22']

def number (value : Nat) : Text := Nat.toDigits 10 value

def array (items : List Text) : Text := ['['] ++ List.intercalate [','] items ++ [']']

def object (fields : List (Text × Text)) : Text :=
  ['\x7b'] ++ List.intercalate [','] (fields.map fun field => string field.1 ++ [':'] ++ field.2) ++ ['\x7d']

/-- An absent value is `null`. -/
def optional {α : Type} (encode : α → Text) : Option α → Text
  | none => "null".toList
  | some value => encode value

theorem intercalate_cons {α : Type} (separator : α) (item : List α) (items : List (List α)) :
    List.intercalate [separator] (item :: items) = item ++ items.flatMap (separator :: ·) := by
  induction items generalizing item with
  | nil => simp [List.intercalate]
  | cons next items ih => rw [intercalate_cons_cons, ih, flatMap_cons, append_assoc, singleton_append, cons_append]

theorem utf8Size_hexDigit {value : Nat} (small : value < 16) : (hexDigit value).utf8Size = 1 := by
  have checked : ∀ digit < 16, (hexDigit digit).utf8Size = 1 := by decide
  exact checked value small

theorem byteLen_escape_le (char : Char) : byteLen (escape char) ≤ 6 * char.utf8Size := by
  have positive := char.utf8Size_pos
  unfold escape
  split
  case h_8 =>
    split
    next control =>
      have high := utf8Size_hexDigit (show char.toNat / 16 < 16 by omega)
      have low := utf8Size_hexDigit (Nat.mod_lt char.toNat (by decide : 16 > 0))
      have start : byteLen "\\u00".toList = 4 := by decide
      simp only [byteLen_append, byteLen_cons, byteLen_nil, high, low, start]
      omega
    · simp only [byteLen_cons, byteLen_nil]
      omega
  all_goals
    refine Nat.le_trans (show _ ≤ 2 by decide) ?_
    omega

theorem byteLen_string_le (value : Text) : byteLen (string value) ≤ 6 * byteLen value + 2 := by
  have inner : byteLen (value.flatMap escape) ≤ 6 * byteLen value := by
    induction value with
    | nil => simp
    | cons char rest ih =>
      have first := byteLen_escape_le char
      simp only [flatMap_cons, byteLen_append, byteLen_cons]
      omega
  have quote : byteLen ['\x22'] = 1 := by decide
  simp only [string, byteLen_append, quote]
  omega

theorem byteLen_number_le {value digits : Nat} (positive : 0 < digits) (small : value < 10 ^ digits) : byteLen (number value) ≤ 4 * digits := by
  have short := (Nat.length_toDigits_le_iff (n := value) (b := 10) (k := digits) (by decide) positive).mpr small
  exact Nat.le_trans (byteLen_le_length _) (Nat.mul_le_mul_left 4 short)

theorem byteLen_object_le (fields : List (Text × Text)) :
    byteLen (object fields) ≤ 2 + (fields.map fun field => 6 * byteLen field.1 + byteLen field.2 + 4).sum := by
  have inner : ∀ items : List Text, byteLen (List.intercalate [','] items) ≤ (items.map fun item => byteLen item + 1).sum := by
    intro items
    induction items with
    | nil => simp
    | cons item items ih =>
      cases items with
      | nil => simp
      | cons next rest =>
        have comma : byteLen [','] = 1 := by decide
        simp only [intercalate_cons_cons, byteLen_append, map_cons, sum_cons, comma] at ih ⊢
        omega
  have entries : ∀ fields : List (Text × Text),
      ((fields.map fun field => string field.1 ++ [':'] ++ field.2).map fun item => byteLen item + 1).sum ≤
        (fields.map fun field => 6 * byteLen field.1 + byteLen field.2 + 4).sum := by
    intro fields
    induction fields with
    | nil => simp
    | cons field fields ih =>
      have name := byteLen_string_le field.1
      have colon : byteLen [':'] = 1 := by decide
      simp only [map_cons, sum_cons, byteLen_append, colon] at ih ⊢
      omega
  have braces : byteLen ['\x7b'] = 1 ∧ byteLen ['\x7d'] = 1 := by decide
  have body := Nat.le_trans (inner _) (entries fields)
  simp only [object, byteLen_append, braces.1, braces.2]
  omega

end Retonr.Json
