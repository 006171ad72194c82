import Retonr.Lib.Text

/-! Self-delimiting byte encodings. What such a writer wrote can be told apart from whatever
follows it, so a sequence of fields determines every one of them. -/

namespace Retonr.Framing
open List

variable {α β : Type}

/-- The lowest `width` bytes of a number, the most significant first. -/
def bigEndian : Nat → Nat → Bytes
  | 0, _ => []
  | width + 1, value => bigEndian width (value / 256) ++ [UInt8.ofNat value]

/-- The lowest `width` bytes of a number, the least significant first. -/
def littleEndian : Nat → Nat → Bytes
  | 0, _ => []
  | width + 1, value => UInt8.ofNat value :: littleEndian width (value / 256)

/-- The number the bytes spell, the least significant first. -/
def littleEndianNat (bytes : Bytes) : Nat := bytes.foldr (fun byte value => byte.toNat + 256 * value) 0

/-- The number the bytes spell, the most significant first. -/
def bigEndianNat (bytes : Bytes) : Nat := bytes.foldl (fun value byte => value * 256 + byte.toNat) 0

/-- A field after its own length in eight bytes. A length that does not fit is written as the
largest one that does. -/
def sized (bytes : Bytes) : Bytes := bigEndian 8 (min bytes.length (2 ^ 64 - 1)) ++ bytes

/-- A value that may be absent, after a byte that says whether it is there. -/
def optional (write : α → Bytes) : Option α → Bytes
  | some value => 1 :: write value
  | none => [0]

/-- Items after their number in eight bytes. -/
def counted (write : α → Bytes) (items : List α) : Bytes := bigEndian 8 items.length ++ items.flatMap write

@[simp] theorem length_bigEndian (width value : Nat) : (bigEndian width value).length = width := by
  induction width generalizing value with
  | zero => rfl
  | succ width ih => simp [bigEndian, ih]

theorem bigEndian_inj {width value other : Nat} (fits : value < 256 ^ width) (alsoFits : other < 256 ^ width)
    (same : bigEndian width value = bigEndian width other) : value = other := by
  induction width generalizing value other with
  | zero => omega
  | succ width ih =>
    obtain ⟨high, low⟩ := append_inj' same rfl
    have high : value / 256 = other / 256 :=
      ih (Nat.div_lt_of_lt_mul (by omega)) (Nat.div_lt_of_lt_mul (by omega)) high
    have low : value % 256 = other % 256 := by simpa [← UInt8.toNat_inj] using low
    omega

theorem bigEndianNat_eq_ofDigits (bytes : Bytes) : bigEndianNat bytes = Nat.ofDigits 256 (bytes.map UInt8.toNat).reverse := by
  induction bytes using List.reverseRecOn with
  | nil => rfl
  | append_singleton bytes byte ih =>
    rw [bigEndianNat, foldl_append, foldl_cons, foldl_nil, map_append, map_singleton, reverse_append,
      reverse_singleton, singleton_append, Nat.ofDigits_cons, ← ih, bigEndianNat]
    omega

theorem bigEndianNat_cons (byte : UInt8) (bytes : Bytes) :
    bigEndianNat (byte :: bytes) = byte.toNat * 256 ^ bytes.length + bigEndianNat bytes := by
  rw [bigEndianNat_eq_ofDigits, bigEndianNat_eq_ofDigits, map_cons, reverse_cons, Nat.ofDigits_append, Nat.ofDigits_singleton,
    length_reverse, length_map, Nat.mul_comm, Nat.add_comm]

theorem le_bigEndianNat_cons (byte : UInt8) (bytes : Bytes) : byte.toNat * 256 ^ bytes.length ≤ bigEndianNat (byte :: bytes) :=
  bigEndianNat_cons byte bytes ▸ Nat.le_add_right _ _

/-- The bytes are the only spelling of their number of that width. -/
theorem bigEndian_nat (bytes : Bytes) : bigEndian bytes.length (bigEndianNat bytes) = bytes := by
  induction bytes using List.reverseRecOn with
  | nil => rfl
  | append_singleton bytes byte ih =>
    have bound := byte.toNat_lt
    have value : bigEndianNat (bytes ++ [byte]) = bigEndianNat bytes * 256 + byte.toNat := by
      rw [bigEndianNat, foldl_append]
      rfl
    have high : (bigEndianNat bytes * 256 + byte.toNat) / 256 = bigEndianNat bytes := by omega
    have low : UInt8.ofNat (bigEndianNat bytes * 256 + byte.toNat) = byte := by
      rw [← UInt8.toNat_inj, UInt8.toNat_ofNat']
      omega
    rw [value, length_append, length_singleton, bigEndian, high, low, ih]

theorem bigEndianNat_lt (bytes : Bytes) : bigEndianNat bytes < 256 ^ bytes.length := by
  rw [bigEndianNat_eq_ofDigits]
  have bound := Nat.ofDigits_lt_base_pow_length (l := (bytes.map UInt8.toNat).reverse) (b := 256) (by decide) (by
    intro digit member
    obtain ⟨byte, -, rfl⟩ := mem_map.mp (mem_reverse.mp member)
    exact byte.toNat_lt)
  rwa [length_reverse, length_map] at bound

theorem nat_bigEndian {width value : Nat} (fits : value < 256 ^ width) : bigEndianNat (bigEndian width value) = value := by
  have again := bigEndian_nat (bigEndian width value)
  have bound := bigEndianNat_lt (bigEndian width value)
  rw [length_bigEndian] at again bound
  exact bigEndian_inj bound fits again

theorem littleEndianNat_lt (bytes : Bytes) : littleEndianNat bytes < 256 ^ bytes.length := by
  induction bytes with
  | nil => simp [littleEndianNat]
  | cons byte bytes ih =>
    have small := byte.toNat_lt
    simp only [littleEndianNat, foldr_cons, length_cons, Nat.pow_succ] at ih ⊢
    omega

theorem littleEndian_nat (bytes : Bytes) : littleEndian bytes.length (littleEndianNat bytes) = bytes := by
  induction bytes with
  | nil => rfl
  | cons byte bytes ih =>
    have small := byte.toNat_lt
    have high : (byte.toNat + 256 * littleEndianNat bytes) / 256 = littleEndianNat bytes := by omega
    have low : UInt8.ofNat (byte.toNat + 256 * littleEndianNat bytes) = byte := by
      rw [← UInt8.toNat_inj, UInt8.toNat_ofNat']
      omega
    have spelled : littleEndianNat (byte :: bytes) = byte.toNat + 256 * littleEndianNat bytes := rfl
    rw [spelled, length_cons, littleEndian, high, low, ih]

/-- The written bytes determine the value and where they end, whatever follows. -/
def SelfDelimiting (valid : α → Prop) (write : α → Bytes) : Prop :=
  ∀ ⦃value other⦄, valid value → valid other → ∀ ⦃rest more⦄, write value ++ rest = write other ++ more → value = other ∧ rest = more

namespace SelfDelimiting

variable {valid : α → Prop} {write : α → Bytes}

theorem injective (delimits : SelfDelimiting valid write) {value other : α} (first : valid value) (second : valid other)
    (same : write value = write other) : value = other := by
  have followed : write value ++ [] = write other ++ [] := by rw [same]
  exact (delimits first second followed).1

theorem ofWidth {width : Nat} (fixed : ∀ value, (write value).length = width)
    (injective : ∀ value other, valid value → valid other → write value = write other → value = other) : SelfDelimiting valid write := by
  intro value other first second rest more same
  obtain ⟨written, follows⟩ := append_inj same ((fixed value).trans (fixed other).symm)
  exact ⟨injective value other first second written, follows⟩

theorem bigEndian (width : Nat) : SelfDelimiting (· < 256 ^ width) (bigEndian width) :=
  .ofWidth (length_bigEndian width) fun _ _ => bigEndian_inj

theorem sized : SelfDelimiting (fun bytes : Bytes => bytes.length < 2 ^ 64) sized := by
  intro bytes other fits alsoFits rest more same
  simp only [Framing.sized, append_assoc] at same
  obtain ⟨lengths, follows⟩ := bigEndian 8 (by omega) (by omega) same
  exact append_inj follows (by omega)

theorem byte {code : α → UInt8} (injective : Function.Injective code) : SelfDelimiting (fun _ => True) fun value => [code value] := by
  refine .ofWidth (fun _ => rfl) fun value other _ _ same => injective ?_
  simpa using same

theorem optional (delimits : SelfDelimiting valid write) : SelfDelimiting (fun value => ∀ inner ∈ value, valid inner) (optional write) := by
  rintro (_ | value) (_ | other) first second rest more same
  · exact ⟨rfl, by simpa [Framing.optional] using same⟩
  · simp [Framing.optional] at same
  · simp [Framing.optional] at same
  · simp only [Framing.optional, cons_append, List.cons.injEq, true_and] at same
    obtain ⟨rfl, follows⟩ := delimits (first value rfl) (second other rfl) same
    exact ⟨rfl, follows⟩

/-- A value written through another one that determines it. -/
theorem comap (delimits : SelfDelimiting valid write) (view : β → α) (injective : Function.Injective view) :
    SelfDelimiting (fun value => valid (view value)) fun value => write (view value) := by
  intro value other first second rest more same
  obtain ⟨views, follows⟩ := delimits first second same
  exact ⟨injective views, follows⟩

theorem uint32 : SelfDelimiting (fun _ => True) fun value : UInt32 => Framing.bigEndian 4 value.toNat := by
  intro value other _ _
  exact (bigEndian 4).comap UInt32.toNat (fun _ _ => UInt32.toNat_inj.mp) value.toNat_lt other.toNat_lt

theorem uint64 : SelfDelimiting (fun _ => True) fun value : UInt64 => Framing.bigEndian 8 value.toNat := by
  intro value other _ _
  exact (bigEndian 8).comap UInt64.toNat (fun _ _ => UInt64.toNat_inj.mp) value.toNat_lt other.toNat_lt

theorem sizedText : SelfDelimiting (fun text : Text => text.byteLen < 2 ^ 64) fun text => Framing.sized text.encode := by
  intro text other fits alsoFits
  exact sized.comap Text.encode (fun _ _ => Text.encode_injective) (by simpa using fits) (by simpa using alsoFits)

theorem pair {alsoValid : β → Prop} {writeSecond : β → Bytes} (first : SelfDelimiting valid write)
    (second : SelfDelimiting alsoValid writeSecond) :
    SelfDelimiting (fun value : α × β => valid value.1 ∧ alsoValid value.2) fun value => write value.1 ++ writeSecond value.2 := by
  rintro ⟨left, right⟩ ⟨otherLeft, otherRight⟩ ⟨leftValid, rightValid⟩ ⟨otherLeftValid, otherRightValid⟩ rest more same
  simp only [append_assoc] at same
  obtain ⟨lefts, same⟩ := first leftValid otherLeftValid same
  obtain ⟨rights, same⟩ := second rightValid otherRightValid same
  exact ⟨Prod.ext lefts rights, same⟩

/-- Items written one after the other, when it is known how many there are. -/
theorem flatMap (delimits : SelfDelimiting valid write) {items others : List α} (first : ∀ item ∈ items, valid item)
    (second : ∀ item ∈ others, valid item) (count : items.length = others.length) {rest more : Bytes}
    (same : items.flatMap write ++ rest = others.flatMap write ++ more) : items = others ∧ rest = more := by
  induction items generalizing others with
  | nil =>
    obtain rfl := length_eq_zero_iff.mp count.symm
    exact ⟨rfl, same⟩
  | cons item items ih =>
    obtain ⟨other, others, rfl⟩ := exists_cons_of_length_eq_add_one count.symm
    simp only [flatMap_cons, append_assoc] at same
    obtain ⟨rfl, after⟩ := delimits (first item (by simp)) (second other (by simp)) same
    obtain ⟨rfl, follows⟩ := ih (fun item member => first item (by simp [member]))
      (fun item member => second item (by simp [member])) (by simpa using count) after
    exact ⟨rfl, follows⟩

theorem counted (delimits : SelfDelimiting valid write) :
    SelfDelimiting (fun items : List α => items.length < 2 ^ 64 ∧ ∀ item ∈ items, valid item) (counted write) := by
  rintro items others ⟨fits, first⟩ ⟨alsoFits, second⟩ rest more same
  simp only [Framing.counted, append_assoc] at same
  obtain ⟨count, follows⟩ := bigEndian 8 (by omega) (by omega) same
  exact delimits.flatMap first second count follows

/-- Items written one after the other up to the end, when none of them is written as nothing. -/
theorem flatMap_to_end (delimits : SelfDelimiting valid write) (nonempty : ∀ item, write item ≠ []) {items others : List α}
    (first : ∀ item ∈ items, valid item) (second : ∀ item ∈ others, valid item)
    (same : items.flatMap write = others.flatMap write) : items = others := by
  induction items generalizing others with
  | nil =>
    cases others with
    | nil => rfl
    | cons other others => simp [nonempty] at same
  | cons item items ih =>
    cases others with
    | nil => simp [nonempty] at same
    | cons other others =>
      simp only [flatMap_cons] at same
      obtain ⟨rfl, after⟩ := delimits (first item (by simp)) (second other (by simp)) same
      rw [ih (fun item member => first item (by simp [member])) (fun item member => second item (by simp [member])) after]

end SelfDelimiting

end Retonr.Framing
