import Retonr.Lib.Base64
import Retonr.OllamaPackage.Armor

/-! Which texts the armor decoder accepts. Every payload it accepts is the standard encoding
of the bytes it returns, up to the first padding character, which the decoder
takes for padding whenever it is not a symbol. -/

namespace Retonr.Armor
open Base64 (symbol padding encode)
open List

theorem base64Value_symbol : ∀ value < 64, base64Value (symbol value) = some (UInt8.ofNat value) := by decide +kernel

theorem symbol_ne_padding : ∀ value, symbol value ≠ padding := by
  intro value
  by_cases small : value < 64
  · intro same
    have found := base64Value_symbol value small
    rw [same] at found
    cases found
  · have last : symbol value = 47 := by
      simp only [symbol, if_neg (show ¬value < 26 by omega), if_neg (show ¬value < 52 by omega), if_neg (show ¬value < 62 by omega),
        if_neg (show value ≠ 62 by omega)]
    rw [last]
    decide

private theorem symbol_of_base64Value_aux : ∀ code < 256, (base64Value (UInt8.ofNat code)).all fun value =>
    value.toNat < 64 ∧ symbol value.toNat = UInt8.ofNat code := by
  decide +kernel

theorem symbol_of_base64Value {byte value : UInt8} (found : base64Value byte = some value) : value.toNat < 64 ∧ symbol value.toNat = byte := by
  have listed := symbol_of_base64Value_aux byte.toNat byte.toNat_lt
  rw [UInt8.ofNat_toNat, found] at listed
  exact of_decide_eq_true listed

theorem optionalValue_eq (byte : UInt8) : optionalValue byte = base64Value byte := by
  unfold optionalValue
  split
  · rfl
  next other =>
    rw [not_not.mp other]
    rfl

private theorem or_eq_add {high low width : Nat} (small : low < 2 ^ width) : high * 2 ^ width ||| low = high * 2 ^ width + low := by
  rw [Nat.mul_comm, Nat.two_pow_add_eq_or_of_lt small]

/-- Two shifted values as a number, once the high part is cut to what a byte keeps of it. -/
private theorem shifted {high low : Nat} (kept left right : Nat) (smallHigh : high < 256) (smallLow : low < 256) (few : left < 8) (also : right < 8)
    (cut : high * 2 ^ left % 256 = kept * 2 ^ left) (narrow : low / 2 ^ right < 2 ^ left) :
    (UInt8.ofNat high <<< UInt8.ofNat left ||| UInt8.ofNat low >>> UInt8.ofNat right) = UInt8.ofNat (kept * 2 ^ left + low / 2 ^ right) := by
  apply UInt8.toNat_inj.mp
  have joined : kept * 2 ^ left ||| low / 2 ^ right = kept * 2 ^ left + low / 2 ^ right := or_eq_add narrow
  have whole : kept * 2 ^ left + low / 2 ^ right < 256 := by
    rw [← joined]
    exact Nat.or_lt_two_pow (n := 8) (by omega) (Nat.lt_of_le_of_lt (Nat.div_le_self _ _) smallLow)
  simp only [UInt8.toNat_or, UInt8.toNat_shiftLeft, UInt8.toNat_shiftRight, UInt8.toNat_ofNat', Nat.shiftLeft_eq, Nat.shiftRight_eq_div_pow,
    Nat.reducePow, Nat.mod_eq_of_lt smallHigh, Nat.mod_eq_of_lt smallLow, Nat.mod_eq_of_lt (show left < 256 by omega),
    Nat.mod_eq_of_lt (show right < 256 by omega), Nat.mod_eq_of_lt few, Nat.mod_eq_of_lt also, cut, joined, Nat.mod_eq_of_lt whole]

section Shifts

variable {a b c d : Nat} (smallA : a < 64) (smallB : b < 64) (smallC : c < 64) (smallD : d < 64)

include smallA smallB in
theorem shift_first : (UInt8.ofNat a <<< 2 ||| UInt8.ofNat b >>> 4) = UInt8.ofNat (a * 4 + b / 16) :=
  shifted a 2 4 (by omega) (by omega) (by decide) (by decide) (by omega) (by omega)

include smallB smallC in
theorem shift_second : (UInt8.ofNat b <<< 4 ||| UInt8.ofNat c >>> 2) = UInt8.ofNat (b % 16 * 16 + c / 4) :=
  shifted (b % 16) 4 2 (by omega) (by omega) (by decide) (by decide) (by omega) (by omega)

include smallC smallD in
theorem shift_third : (UInt8.ofNat c <<< 6 ||| UInt8.ofNat d) = UInt8.ofNat (c % 4 * 64 + d) := by
  have joined := shifted (c % 4) 6 0 (show c < 256 by omega) (show d < 256 by omega) (by decide) (by decide)
    (by omega) (by omega)
  simpa using joined

end Shifts

theorem low_bits : ∀ a < 64, (UInt8.ofNat a &&& 0x0F = 0 ↔ a % 16 = 0) ∧ (UInt8.ofNat a &&& 0x03 = 0 ↔ a % 4 = 0) := by decide +kernel

section Groups

variable {a b c d : Nat} (first : a < 64) (second : b < 64)

include first second

theorem encode_three (third : c < 64) (fourth : d < 64) :
    encode [UInt8.ofNat (a * 4 + b / 16), UInt8.ofNat (b % 16 * 16 + c / 4), UInt8.ofNat (c % 4 * 64 + d)] =
      [symbol a, symbol b, symbol c, symbol d] := by
  simp only [encode, UInt8.toNat_ofNat', List.cons.injEq, and_true]
  refine ⟨congrArg symbol ?_, congrArg symbol ?_, congrArg symbol ?_, congrArg symbol ?_⟩ <;> omega

theorem encode_two (third : c < 64) (low : c % 4 = 0) :
    encode [UInt8.ofNat (a * 4 + b / 16), UInt8.ofNat (b % 16 * 16 + c / 4)] = [symbol a, symbol b, symbol c, padding] := by
  simp only [encode, UInt8.toNat_ofNat', List.cons.injEq, and_true]
  refine ⟨congrArg symbol ?_, congrArg symbol ?_, congrArg symbol ?_⟩ <;> omega

theorem encode_one (low : b % 16 = 0) : encode [UInt8.ofNat (a * 4 + b / 16)] = [symbol a, symbol b, padding, padding] := by
  simp only [encode, UInt8.toNat_ofNat', List.cons.injEq, and_true]
  refine ⟨congrArg symbol ?_, congrArg symbol ?_⟩ <;> omega

end Groups

/-- The groups the decoder accepts: three bytes exactly, and in last place one or two bytes whose first
padding character is any byte that is no symbol. -/
inductive Spelled : Bytes → Bytes → Prop where
  | empty : Spelled [] []
  | three {p q r w x y z : UInt8} {encoded bytes : Bytes} (shape : encode [p, q, r] = [w, x, y, z]) (rest : Spelled encoded bytes) :
      Spelled (w :: x :: y :: z :: encoded) (p :: q :: r :: bytes)
  | two {p q w x y mark : UInt8} (shape : encode [p, q] = [w, x, y, padding]) (foreign : base64Value mark = none) :
      Spelled [w, x, y, mark] [p, q]
  | one {p w x mark : UInt8} (shape : encode [p] = [w, x, padding, padding]) (foreign : base64Value mark = none) :
      Spelled [w, x, mark, padding] [p]

variable {w x y : UInt8}

theorem decodeChunk_cases {finalChunk : Bool} {z : UInt8} {chunk : Bytes} (decoded : decodeChunk finalChunk w x y z = some chunk) :
    (∃ p q r, chunk = [p, q, r] ∧ encode [p, q, r] = [w, x, y, z]) ∨ finalChunk = true ∧ chunk ≠ [] ∧ Spelled [w, x, y, z] chunk := by
  simp only [decodeChunk, optionalValue_eq, Option.bind_eq_bind, Option.bind_eq_some_iff] at decoded
  obtain ⟨a, firstValue, b, secondValue, decoded⟩ := decoded
  obtain ⟨smallA, rfl⟩ := symbol_of_base64Value firstValue
  obtain ⟨smallB, rfl⟩ := symbol_of_base64Value secondValue
  have joined := shift_first smallA smallB
  rw [UInt8.ofNat_toNat, UInt8.ofNat_toNat] at joined
  split at decoded
  · cases decoded
  next accepted =>
    rw [not_or, not_or] at accepted
    obtain ⟨onlyOne, onlyTwo, _⟩ := accepted
    cases thirdValue : base64Value y with
    | none =>
      rw [thirdValue] at decoded onlyOne
      simp only [Option.isNone_none, true_and, not_or, Bool.not_eq_false, not_not] at onlyOne
      obtain ⟨last, padded, low⟩ := onlyOne
      have zero := (low_bits b.toNat smallB).1.mp (by rwa [UInt8.ofNat_toNat])
      simp only [joined, Option.some.injEq] at decoded
      subst padded decoded
      exact Or.inr ⟨last, cons_ne_nil _ _, Spelled.one (encode_one smallA smallB zero) thirdValue⟩
    | some c =>
      obtain ⟨smallC, rfl⟩ := symbol_of_base64Value thirdValue
      have middle := shift_second smallB smallC
      rw [UInt8.ofNat_toNat, UInt8.ofNat_toNat] at middle
      cases fourthValue : base64Value z with
      | none =>
        rw [thirdValue, fourthValue] at decoded onlyTwo
        simp only [Option.isSome_some, Option.isNone_none, true_and, not_or, Bool.not_eq_false, not_not, Option.map_some,
          Option.some.injEq] at onlyTwo
        have zero := (low_bits c.toNat smallC).2.mp (by rw [UInt8.ofNat_toNat]; exact onlyTwo.2)
        simp only [joined, middle, Option.some.injEq] at decoded
        subst decoded
        exact Or.inr ⟨onlyTwo.1, cons_ne_nil _ _, Spelled.two (encode_two smallA smallB smallC zero) fourthValue⟩
      | some d =>
        obtain ⟨smallD, rfl⟩ := symbol_of_base64Value fourthValue
        have final := shift_third smallC smallD
        rw [UInt8.ofNat_toNat, UInt8.ofNat_toNat] at final
        rw [thirdValue, fourthValue] at decoded
        simp only [joined, middle, final, Option.some.injEq] at decoded
        subst decoded
        exact Or.inl ⟨_, _, _, rfl, encode_three smallA smallB smallC smallD⟩

/-- Every group the encoding writes is read back, and so is a last group whose first padding was replaced. -/
theorem decodeChunk_three (finalChunk : Bool) (p q r : UInt8) {z : UInt8} (shape : encode [p, q, r] = [w, x, y, z]) :
    decodeChunk finalChunk w x y z = some [p, q, r] := by
  have firstByte := p.toNat_lt
  have secondByte := q.toNat_lt
  have thirdByte := r.toNat_lt
  simp only [encode, List.cons.injEq, and_true] at shape
  obtain ⟨rfl, rfl, rfl, rfl⟩ := shape
  have smallA : p.toNat / 4 < 64 := by omega
  have smallB : p.toNat % 4 * 16 + q.toNat / 16 < 64 := by omega
  have smallC : q.toNat % 16 * 4 + r.toNat / 64 < 64 := by omega
  have smallD : r.toNat % 64 < 64 := by omega
  simp only [decodeChunk, optionalValue_eq, base64Value_symbol _ smallA, base64Value_symbol _ smallB, base64Value_symbol _ smallC,
    base64Value_symbol _ smallD, Option.bind_eq_bind, Option.bind_some, Option.isNone_some, Bool.false_eq_true, false_and, and_false,
    or_self, if_false, shift_first smallA smallB, shift_second smallB smallC, shift_third smallC smallD]
  have back : (p.toNat / 4 * 4 + (p.toNat % 4 * 16 + q.toNat / 16) / 16 = p.toNat) ∧
      ((p.toNat % 4 * 16 + q.toNat / 16) % 16 * 16 + (q.toNat % 16 * 4 + r.toNat / 64) / 4 = q.toNat) ∧
      (q.toNat % 16 * 4 + r.toNat / 64) % 4 * 64 + r.toNat % 64 = r.toNat := by omega
  rw [back.1, back.2.1, back.2.2, UInt8.ofNat_toNat, UInt8.ofNat_toNat, UInt8.ofNat_toNat]

variable {mark : UInt8}

theorem decodeChunk_two (p q : UInt8) (shape : encode [p, q] = [w, x, y, padding])
    (foreign : base64Value mark = none) : decodeChunk true w x y mark = some [p, q] := by
  have firstByte := p.toNat_lt
  have secondByte := q.toNat_lt
  simp only [encode, List.cons.injEq, and_true] at shape
  obtain ⟨rfl, rfl, rfl⟩ := shape
  have smallA : p.toNat / 4 < 64 := by omega
  have smallB : p.toNat % 4 * 16 + q.toNat / 16 < 64 := by omega
  have smallC : q.toNat % 16 * 4 < 64 := by omega
  have low : UInt8.ofNat (q.toNat % 16 * 4) &&& 3 = 0 := (low_bits _ smallC).2.mpr (by omega)
  have back : (p.toNat / 4 * 4 + (p.toNat % 4 * 16 + q.toNat / 16) / 16 = p.toNat) ∧
      (p.toNat % 4 * 16 + q.toNat / 16) % 16 * 16 + q.toNat % 16 * 4 / 4 = q.toNat := by omega
  simp only [decodeChunk, optionalValue_eq, base64Value_symbol _ smallA, base64Value_symbol _ smallB, base64Value_symbol _ smallC,
    foreign, low, Option.bind_eq_bind, Option.bind_some, Option.isNone_some, Option.isSome_none, Option.map_some, ne_eq, not_true_eq_false,
    Bool.false_eq_true, Bool.true_eq_false, false_and, and_false, or_self, if_false, shift_first smallA smallB,
    shift_second smallB smallC, back.1, back.2, UInt8.ofNat_toNat]

theorem decodeChunk_one (p : UInt8) (shape : encode [p] = [w, x, padding, padding])
    (foreign : base64Value mark = none) : decodeChunk true w x mark padding = some [p] := by
  have firstByte := p.toNat_lt
  simp only [encode, List.cons.injEq, and_true] at shape
  obtain ⟨rfl, rfl⟩ := shape
  have smallA : p.toNat / 4 < 64 := by omega
  have smallB : p.toNat % 4 * 16 < 64 := by omega
  have low : UInt8.ofNat (p.toNat % 4 * 16) &&& 15 = 0 := (low_bits _ smallB).1.mpr (by omega)
  have back : p.toNat / 4 * 4 + p.toNat % 4 * 16 / 16 = p.toNat := by omega
  have pad : base64Value equals = none := rfl
  have same : padding = equals := rfl
  simp only [decodeChunk, optionalValue_eq, base64Value_symbol _ smallA, base64Value_symbol _ smallB, foreign, pad, low, same,
    Option.bind_eq_bind, Option.bind_some, Option.isSome_none, ne_eq, not_true_eq_false, Bool.false_eq_true, Bool.true_eq_false, false_and,
    and_false, or_self, if_false, shift_first smallA smallB, back, UInt8.ofNat_toNat]

variable {maximum : Nat} {decoded encoded : Bytes}

theorem decodeChunks_sound {result : Bytes} (whole : encoded.length % 4 = 0) (done : decodeChunks maximum decoded encoded = some result) :
    ∃ bytes, result = decoded ++ bytes ∧ Spelled encoded bytes ∧ (encoded ≠ [] → bytes ≠ [] ∧ result.length ≤ maximum) := by
  induction decoded, encoded using decodeChunks.induct with
  | case1 decoded w x y z rest ih =>
    simp only [decodeChunks, Option.bind_eq_bind, Option.bind_eq_some_iff] at done
    obtain ⟨chunk, group, done⟩ := done
    split at done
    · cases done
    next fits =>
      obtain ⟨bytes, rfl, spelled, bound⟩ := ih chunk (by simp only [length_cons] at whole; omega) done
      rcases decodeChunk_cases group with ⟨p, q, r, rfl, shape⟩ | ⟨last, nonempty, short⟩
      · refine ⟨p :: q :: r :: bytes, by simp, .three shape spelled, fun _ => ⟨by simp, ?_⟩⟩
        by_cases more : rest = []
        · subst more
          cases spelled
          simpa using Nat.le_of_not_lt fits
        · exact (bound more).2
      · obtain rfl := isEmpty_iff.mp last
        cases spelled
        exact ⟨chunk, by simp, short, fun _ => ⟨nonempty, by simpa using Nat.le_of_not_lt fits⟩⟩
  | case2 encoded decoded other =>
    obtain rfl : encoded = [] := by
      match encoded, other, whole with
      | [], _, _ => rfl
      | [_], _, odd => cases odd
      | [_, _], _, odd => cases odd
      | [_, _, _], _, odd => cases odd
      | w :: x :: y :: z :: rest, other, _ => exact absurd rfl (other w x y z rest)
    simp only [decodeChunks, Option.some.injEq] at done
    exact ⟨[], by simp [done], .empty, fun nonempty => absurd rfl nonempty⟩

variable {bytes : Bytes}

theorem decodeChunks_complete (spelled : Spelled encoded bytes) (decoded : Bytes)
    (fits : (decoded ++ bytes).length ≤ maximum) : decodeChunks maximum decoded encoded = some (decoded ++ bytes) := by
  induction spelled generalizing decoded with
  | empty => simp [decodeChunks]
  | @three p q r w x y z encoded bytes shape rest ih =>
    have room : ¬maximum < (decoded ++ [p, q, r]).length := by
      simp only [length_append, length_cons, length_nil] at fits ⊢
      omega
    have later := ih (decoded ++ [p, q, r]) (by simpa using fits)
    simp only [decodeChunks, decodeChunk_three encoded.isEmpty p q r shape, Option.bind_eq_bind, Option.bind_some, room, if_false, later]
    simp
  | @two p q w x y mark shape foreign =>
    have room : ¬maximum < (decoded ++ [p, q]).length := Nat.not_lt.mpr fits
    simp only [decodeChunks, isEmpty_nil, decodeChunk_two p q shape foreign, Option.bind_eq_bind, Option.bind_some, room, if_false]
  | @one p w x mark shape foreign =>
    have room : ¬maximum < (decoded ++ [p]).length := Nat.not_lt.mpr fits
    simp only [decodeChunks, isEmpty_nil, decodeChunk_one p shape foreign, Option.bind_eq_bind, Option.bind_some, room, if_false]

/-- The decoder returns exactly the bytes a payload spells. -/
theorem decodeBase64_iff : decodeBase64 encoded maximum = some bytes ↔ bytes ≠ [] ∧ bytes.length ≤ maximum ∧ Spelled encoded bytes := by
  constructor
  · intro done
    simp only [decodeBase64] at done
    split at done
    · cases done
    next accepted =>
      simp only [not_or, not_not] at accepted
      obtain ⟨result, rfl, spelled, bound⟩ := decodeChunks_sound accepted.2 done
      exact ⟨(bound accepted.1).1, (bound accepted.1).2, spelled⟩
  · rintro ⟨nonempty, fits, spelled⟩
    have whole : encoded.length % 4 = 0 := by
      clear nonempty fits
      induction spelled with
      | three _ _ ih =>
        simp only [length_cons]
        omega
      | _ => simp
    have filled : encoded ≠ [] := by
      rintro rfl
      cases spelled
      exact nonempty rfl
    simpa [decodeBase64, whole, filled] using decodeChunks_complete spelled [] fits

/-- The standard encoding of the bytes, with its first padding character replaced by a byte that is no symbol. -/
def Respelled (encoded bytes : Bytes) : Prop :=
  ∃ front mark rest, encode bytes = front ++ padding :: rest ∧ padding ∉ front ∧ encoded = front ++ mark :: rest ∧ mark ≠ padding ∧
    base64Value mark = none

theorem spelled_encode : ∀ bytes, Spelled (encode bytes) bytes
  | [] => .empty
  | [_] => .one rfl rfl
  | [_, _] => .two rfl rfl
  | _ :: _ :: _ :: rest => .three rfl (spelled_encode rest)

/-- The padding is where the first padding character stands. -/
private theorem split_at_padding {front rest : Bytes} (shape : encoded = front ++ padding :: rest) (clean : padding ∉ front) :
    front = encoded.takeWhile (· != padding) ∧ padding :: rest = encoded.dropWhile (· != padding) := by
  have all : ∀ byte ∈ front, (byte != padding) = true := by
    intro byte member
    rw [bne_iff_ne]
    rintro rfl
    exact clean member
  subst shape
  rw [takeWhile_append_of_pos all, dropWhile_append_of_pos all]
  simp

theorem spelled_of_respelled {front rest : Bytes} (bytes : Bytes) (shape : encode bytes = front ++ padding :: rest)
    (clean : padding ∉ front) (foreign : base64Value mark = none) : Spelled (front ++ mark :: rest) bytes := by
  have symbols (value : Nat) : (symbol value != padding) = true := by simpa using symbol_ne_padding value
  induction bytes using Base64.encode.induct generalizing front with
  | case1 => simp [encode] at shape
  | case2 p =>
    obtain ⟨before, after⟩ := split_at_padding shape clean
    simp only [encode, takeWhile_cons, dropWhile_cons, symbols, if_true, bne_self_eq_false, Bool.false_eq_true, if_false] at before after
    obtain rfl := before
    cases after
    exact .one rfl foreign
  | case3 p q =>
    obtain ⟨before, after⟩ := split_at_padding shape clean
    simp only [encode, takeWhile_cons, dropWhile_cons, symbols, if_true, bne_self_eq_false, Bool.false_eq_true, if_false] at before after
    obtain rfl := before
    cases after
    exact .two rfl foreign
  | case4 p q r bytes ih =>
    obtain ⟨before, after⟩ := split_at_padding shape clean
    simp only [encode, takeWhile_cons, dropWhile_cons, symbols, if_true] at before after
    have later : encode bytes = (encode bytes).takeWhile (· != padding) ++ padding :: rest := by rw [after, takeWhile_append_dropWhile]
    subst before
    refine .three rfl (ih later ?_)
    intro member
    exact clean (by simp only [mem_cons, member, or_true])

theorem spelled_iff : Spelled encoded bytes ↔ encoded = encode bytes ∨ Respelled encoded bytes := by
  have symbols (value : Nat) : padding ≠ symbol value := (symbol_ne_padding value).symm
  constructor
  · intro spelled
    induction spelled with
    | empty => exact Or.inl rfl
    | three shape _ ih =>
      simp only [encode, List.cons.injEq, and_true] at shape
      obtain ⟨rfl, rfl, rfl, rfl⟩ := shape
      rcases ih with rfl | ⟨front, mark, rest, shape, clean, rfl, other, foreign⟩
      · exact Or.inl rfl
      · refine Or.inr ⟨_ :: _ :: _ :: _ :: front, mark, rest, ?_, ?_, rfl, other, foreign⟩
        · rw [encode, shape]
          rfl
        · simp [symbols, clean]
    | @two p q w x y mark shape foreign =>
      by_cases same : mark = padding
      · exact Or.inl (by rw [same, shape])
      · refine Or.inr ⟨[w, x, y], mark, [], shape, ?_, rfl, same, foreign⟩
        simp only [encode, List.cons.injEq, and_true] at shape
        simp [← shape.1, ← shape.2.1, ← shape.2.2, symbols]
    | @one p w x mark shape foreign =>
      by_cases same : mark = padding
      · exact Or.inl (by rw [same, shape])
      · refine Or.inr ⟨[w, x], mark, [padding], shape, ?_, rfl, same, foreign⟩
        simp only [encode, List.cons.injEq, and_true] at shape
        simp [← shape.1, ← shape.2, symbols]
  · rintro (rfl | ⟨front, mark, rest, shape, clean, rfl, _, foreign⟩)
    · exact spelled_encode bytes
    · exact spelled_of_respelled bytes shape clean foreign

/-- The payload with every byte that is no symbol read as padding. -/
def repadded (encoded : Bytes) : Bytes := encoded.map fun byte => if (base64Value byte).isSome then byte else padding

theorem repadded_of_spelled (spelled : Spelled encoded bytes) : repadded encoded = encode bytes := by
  have symbols (value : Nat) (small : value < 64) : (base64Value (symbol value)).isSome = true := by
    rw [base64Value_symbol value small]
    rfl
  induction spelled with
  | empty => rfl
  | @three p q r w x y z encoded bytes shape _ ih =>
    have bounds := And.intro p.toNat_lt (And.intro q.toNat_lt r.toNat_lt)
    simp only [encode, List.cons.injEq, and_true] at shape
    obtain ⟨rfl, rfl, rfl, rfl⟩ := shape
    simp only [repadded] at ih
    simp only [repadded, map_cons, symbols _ (show p.toNat / 4 < 64 by omega),
      symbols _ (show p.toNat % 4 * 16 + q.toNat / 16 < 64 by omega), symbols _ (show q.toNat % 16 * 4 + r.toNat / 64 < 64 by omega),
      symbols _ (show r.toNat % 64 < 64 by omega), if_true, ih, encode]
  | @two p q w x y mark shape foreign =>
    have bounds := And.intro p.toNat_lt q.toNat_lt
    have plain := shape
    simp only [encode, List.cons.injEq, and_true] at shape
    obtain ⟨rfl, rfl, rfl⟩ := shape
    simp only [repadded, map_cons, map_nil, symbols _ (show p.toNat / 4 < 64 by omega),
      symbols _ (show p.toNat % 4 * 16 + q.toNat / 16 < 64 by omega), symbols _ (show q.toNat % 16 * 4 < 64 by omega), if_true,
      foreign, Option.isSome_none, Bool.false_eq_true, if_false, plain]
  | @one p w x mark shape foreign =>
    have bound := p.toNat_lt
    have plain := shape
    have pad : base64Value padding = none := rfl
    simp only [encode, List.cons.injEq, and_true] at shape
    obtain ⟨rfl, rfl⟩ := shape
    simp only [repadded, map_cons, map_nil, symbols _ (show p.toNat / 4 < 64 by omega),
      symbols _ (show p.toNat % 4 * 16 < 64 by omega), if_true, foreign, pad, Option.isSome_none, Bool.false_eq_true, if_false, plain]

theorem encode_injective {others : Bytes} (same : encode bytes = encode others) : bytes = others := by
  have decoded (bytes : Bytes) (maximum : Nat) (fits : bytes.length ≤ maximum) :
      decodeChunks maximum [] (encode bytes) = some bytes := decodeChunks_complete (spelled_encode bytes) [] fits
  have first := decoded bytes (bytes.length + others.length) (Nat.le_add_right _ _)
  rw [same, decoded others _ (Nat.le_add_left _ _)] at first
  exact (Option.some.inj first).symm

/-- Two payloads yield the same bytes exactly when they agree up to what they write for padding. -/
theorem decodeBase64_eq_iff {other otherBytes : Bytes} (first : decodeBase64 encoded maximum = some bytes)
    (second : decodeBase64 other maximum = some otherBytes) : bytes = otherBytes ↔ repadded encoded = repadded other := by
  rw [repadded_of_spelled (decodeBase64_iff.mp first).2.2, repadded_of_spelled (decodeBase64_iff.mp second).2.2]
  exact ⟨congrArg encode, encode_injective⟩

theorem decodePem_cases {opening closing : Bytes} (done : decodePem bytes opening closing maximum = some decoded) :
    ∃ encoded, pemPayload bytes opening closing maximum = some encoded ∧ decodeBase64 encoded maximum = some decoded := by
  simpa only [decodePem, Option.bind_eq_bind, Option.bind_eq_some_iff] using done

theorem decodeOpenpgp_cases {opening closing : Bytes} {header : Option Bytes}
    (done : decodeOpenpgp bytes opening closing header maximum = some decoded) :
    ∃ encoded crcText, openpgpPayload bytes opening closing header maximum = some (encoded, crcText) ∧
      decodeBase64 encoded maximum = some decoded := by
  simp only [decodeOpenpgp, Option.bind_eq_bind, Option.bind_eq_some_iff] at done
  obtain ⟨⟨encoded, crcText⟩, payload, result, body, crc, _, accepted⟩ := done
  split at accepted
  · cases accepted
  · cases accepted
    exact ⟨encoded, crcText, payload, body⟩

/-- The decoder accepts exactly the standard encodings, and different payloads yield different bytes, as long as no byte
that is no symbol stands where the first padding character belongs. -/
theorem armor_is_canonical_unless_respelled (maximum : Nat) : (∀ encoded,
      ((∀ bytes, decodeBase64 encoded maximum = some bytes → encode bytes = encoded) ∧
        ∀ bytes, bytes ≠ [] → bytes.length ≤ maximum → encode bytes = encoded → decodeBase64 encoded maximum = some bytes) ↔
      ¬∃ bytes, bytes.length ≤ maximum ∧ Respelled encoded bytes) ∧ (∀ opening closing text other payload otherPayload bytes otherBytes,
      pemPayload text opening closing maximum = some payload → decodePem text opening closing maximum = some bytes →
      pemPayload other opening closing maximum = some otherPayload → decodePem other opening closing maximum = some otherBytes →
      ((payload ≠ otherPayload → bytes ≠ otherBytes) ↔ (payload = otherPayload ∨ repadded payload ≠ repadded otherPayload))) ∧
    ∀ opening closing header text other payload otherPayload crcText otherCrc bytes otherBytes,
      openpgpPayload text opening closing header maximum = some (payload, crcText) →
      decodeOpenpgp text opening closing header maximum = some bytes →
      openpgpPayload other opening closing header maximum = some (otherPayload, otherCrc) →
      decodeOpenpgp other opening closing header maximum = some otherBytes →
      ((payload ≠ otherPayload → bytes ≠ otherBytes) ↔ (payload = otherPayload ∨ repadded payload ≠ repadded otherPayload)) := by
  have differ {payload otherPayload bytes otherBytes : Bytes} (first : decodeBase64 payload maximum = some bytes)
      (second : decodeBase64 otherPayload maximum = some otherBytes) :
      (payload ≠ otherPayload → bytes ≠ otherBytes) ↔ (payload = otherPayload ∨ repadded payload ≠ repadded otherPayload) := by
    rw [ne_eq bytes, decodeBase64_eq_iff first second]
    tauto
  refine ⟨?_, ?_, ?_⟩
  · intro encoded
    constructor
    · rintro ⟨canonical, _⟩ ⟨bytes, fits, respelled⟩
      have nonempty : bytes ≠ [] := by
        rintro rfl
        obtain ⟨front, _, _, shape, _⟩ := respelled
        simp [encode] at shape
      have same := canonical bytes (decodeBase64_iff.mpr ⟨nonempty, fits, spelled_iff.mpr (Or.inr respelled)⟩)
      obtain ⟨front, mark, rest, shape, _, rfl, other, _⟩ := respelled
      rw [shape, append_cancel_left_eq] at same
      exact other (List.cons.inj same).1.symm
    · intro plain
      refine ⟨?_, ?_⟩
      · intro bytes done
        obtain ⟨_, fits, spelled⟩ := decodeBase64_iff.mp done
        rcases spelled_iff.mp spelled with same | respelled
        · exact same.symm
        · exact absurd ⟨bytes, fits, respelled⟩ plain
      · rintro bytes nonempty fits rfl
        exact decodeBase64_iff.mpr ⟨nonempty, fits, spelled_encode bytes⟩
  · intro opening closing text other payload otherPayload bytes otherBytes taken done otherTaken otherDone
    obtain ⟨encoded, sameTaken, decoded⟩ := decodePem_cases done
    obtain ⟨otherEncoded, otherSame, otherDecoded⟩ := decodePem_cases otherDone
    rw [taken, Option.some.injEq] at sameTaken
    rw [otherTaken, Option.some.injEq] at otherSame
    subst sameTaken otherSame
    exact differ decoded otherDecoded
  · intro opening closing header text other payload otherPayload crcText otherCrc bytes otherBytes taken done otherTaken otherDone
    obtain ⟨encoded, _, sameTaken, decoded⟩ := decodeOpenpgp_cases done
    obtain ⟨otherEncoded, _, otherSame, otherDecoded⟩ := decodeOpenpgp_cases otherDone
    rw [taken, Option.some.injEq, Prod.mk.injEq] at sameTaken
    rw [otherTaken, Option.some.injEq, Prod.mk.injEq] at otherSame
    obtain ⟨rfl, _⟩ := sameTaken
    obtain ⟨rfl, _⟩ := otherSame
    exact differ decoded otherDecoded

/-- A key file whose first padding character is an exclamation mark yields the bytes of the proper one. -/
theorem respelled_padding_is_accepted : decodeBase64 (Text.encode "YQ!=".toList) 1 = some [97] ∧ encode [97] ≠ Text.encode "YQ!=".toList ∧
      decodePem (Text.encode "-----BEGIN PUBLIC KEY-----\nYQ!=\n-----END PUBLIC KEY-----\n".toList)
          (Text.encode "-----BEGIN PUBLIC KEY-----\n".toList) (Text.encode "-----END PUBLIC KEY-----\n".toList) 64 = some [97] ∧
      decodePem (Text.encode "-----BEGIN PUBLIC KEY-----\nYQ==\n-----END PUBLIC KEY-----\n".toList)
          (Text.encode "-----BEGIN PUBLIC KEY-----\n".toList) (Text.encode "-----END PUBLIC KEY-----\n".toList) 64 = some [97] := by
  decide +kernel

end Retonr.Armor
