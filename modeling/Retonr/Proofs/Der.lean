import Retonr.Lib.Der
import Retonr.OllamaPackage.Der

/-! An accepted public key is the DER encoding of what was read from it, at every level of nesting. -/

namespace Retonr.PublicKey
open Slice Framing List Retonr.Except

theorem toNat_low (byte : UInt8) : (byte &&& 0x7f).toNat = byte.toNat % 128 := by
  rw [UInt8.toNat_and]
  exact Nat.and_two_pow_sub_one_eq_mod byte.toNat 7

theorem sign_clear (byte : UInt8) : byte &&& 0x80 = 0 ↔ byte < 0x80 := by
  have bits : ∀ value < 256, value &&& 128 = 0 ↔ value < 128 := by decide +kernel
  rw [← UInt8.toNat_inj, UInt8.toNat_and, UInt8.lt_iff_toNat_lt]
  exact bits byte.toNat byte.toNat_lt

/-- The bytes of a long length, as the reader accepts them. -/
def LongLength (bytes : Bytes) : Prop := bytes ≠ [] ∧ bytes.length ≤ 4 ∧ bytes.head? ≠ some 0 ∧ 0x80 ≤ bigEndianNat bytes

theorem LongLength.octets {bytes : Bytes} (long : LongLength bytes) :
    Der.lengthOctets (bigEndianNat bytes) = UInt8.ofNat (0x80 + bytes.length) :: bytes := by
  obtain ⟨-, -, lead, large⟩ := long
  rw [Der.lengthOctets, if_neg (Nat.not_lt.mpr large), Der.minimalBytes_bigEndianNat lead]

theorem longLength_minimalBytes {length : Nat} (large : 0x80 ≤ length) (fits : length < 256 ^ 4) : LongLength (Der.minimalBytes length) := by
  refine ⟨?_, Der.length_minimalBytes_le fits, Der.head?_minimalBytes length, (Der.bigEndianNat_minimalBytes length).symm ▸ large⟩
  intro none
  have zero := Der.bigEndianNat_minimalBytes length
  rw [none] at zero
  exact absurd zero (by simp only [bigEndianNat, foldl_nil]; omega)

theorem shortByte_eq {bytes : Bytes} (nonempty : bytes ≠ []) (lead : bytes.head? ≠ some 0) :
    shortByte bytes.length bytes = .ok (decide (bigEndianNat bytes < 0x80)) := by
  match bytes with
  | [byte] => simp [shortByte, index, Except.map, bigEndianNat, UInt8.lt_iff_toNat_lt]
  | first :: second :: rest =>
    have nonzero : first.toNat ≠ 0 := fun zero => lead (by rw [List.head?_cons, UInt8.toNat_inj.mp (zero.trans UInt8.toNat_zero.symm)])
    have large : 256 ≤ bigEndianNat (first :: second :: rest) := calc
      256 ≤ 256 ^ (rest.length + 1) := Nat.le_self_pow (Nat.succ_ne_zero _) 256
      _ ≤ first.toNat * 256 ^ (rest.length + 1) := Nat.le_mul_of_pos_left _ (Nat.pos_of_ne_zero nonzero)
      _ ≤ bigEndianNat (first :: second :: rest) := le_bigEndianNat_cons first (second :: rest)
    rw [shortByte, if_neg (by simp), decide_eq_false (by omega)]

theorem derLength_long {first : UInt8} {tail : Bytes} {length used : Nat} (large : ¬first < 0x80) :
    derLength (first :: tail) = .ok (length, used) ↔ ∃ bytes rest, tail = bytes ++ rest ∧ LongLength bytes ∧
      0x80 + bytes.length = first.toNat ∧ bigEndianNat bytes = length ∧ bytes.length + 1 = used := by
  have top := first.toNat_lt
  have bottom : 0x80 ≤ first.toNat := Nat.not_lt.mp fun small => large (UInt8.lt_iff_toNat_lt.mpr small)
  have width := toNat_low first
  rw [derLength, Slice.first, ok_bind, if_neg large]
  simp only [bind_eq_ok, exists_unit, require_eq_ok, add_eq_ok, get_eq_ok, width, Except.ok.injEq, Prod.mk.injEq]
  constructor
  · rintro ⟨sizes, stop, ⟨-, rfl⟩, bytes, ⟨before, rest, split, single, -, taken⟩, lead, short, checked, rfl, value, folded, total, ⟨-, rfl⟩,
      rfl, rfl⟩
    have taken : bytes.length = first.toNat % 128 := by omega
    obtain ⟨byte, rfl⟩ := length_eq_one_iff.mp single
    obtain ⟨rfl, rfl⟩ := cons_eq_cons.mp split
    have nonempty : bytes ≠ [] := by
      rintro rfl
      exact sizes (Or.inl taken.symm)
    rw [← taken, shortByte_eq nonempty lead, Except.ok.injEq, decide_eq_false_iff_not] at checked
    rw [foldlM_shiftIn (by omega), Except.ok.injEq] at folded
    exact ⟨bytes, rest, rfl, ⟨nonempty, by omega, lead, Nat.not_lt.mp checked⟩, by omega, folded, by omega⟩
  · rintro ⟨bytes, rest, rfl, ⟨nonempty, short, lead, spelled⟩, marked, rfl, rfl⟩
    have nonzero := length_pos_iff.mpr nonempty
    have taken : first.toNat % 128 = bytes.length := by omega
    rw [taken]
    refine ⟨by omega, 1 + bytes.length, ⟨?_, rfl⟩, bytes, ⟨[first], rest, rfl, rfl, by omega, by omega⟩, lead, false, ?_, rfl,
      bigEndianNat bytes, foldlM_shiftIn (by omega), bytes.length + 1, ⟨?_, rfl⟩, rfl, rfl⟩
    · exact Nat.lt_of_le_of_lt (by omega) (by decide : 5 < usizeLimit)
    · rw [shortByte_eq nonempty lead, decide_eq_false (Nat.not_lt.mpr spelled)]
    · exact Nat.lt_of_le_of_lt (by omega) (by decide : 5 < usizeLimit)

theorem derLength_eq_ok {input : Bytes} {length used : Nat} : derLength input = .ok (length, used) ↔
      length < 256 ^ 4 ∧ used = (Der.lengthOctets length).length ∧ ∃ rest, input = Der.lengthOctets length ++ rest := by
  constructor
  · intro read
    obtain ⟨first, started, -⟩ := bind_eq_ok.mp read
    obtain ⟨tail, rfl⟩ := first_eq_ok.mp started
    by_cases small : first < 0x80
    · rw [derLength, Slice.first, ok_bind, if_pos small] at read
      cases read
      have octets : Der.lengthOctets first.toNat = [first] := by
        have value : first.toNat < 0x80 := UInt8.lt_iff_toNat_lt.mp small
        rw [Der.lengthOctets, if_pos value, UInt8.ofNat_toNat]
      rw [octets]
      exact ⟨Nat.lt_trans first.toNat_lt (by decide), rfl, tail, rfl⟩
    · obtain ⟨bytes, rest, rfl, long, marked, rfl, rfl⟩ := (derLength_long small).mp read
      have fits := Nat.lt_of_lt_of_le (bigEndianNat_lt bytes) (Nat.pow_le_pow_right (by decide) long.2.1)
      rw [long.octets, marked, UInt8.ofNat_toNat]
      exact ⟨fits, rfl, rest, rfl⟩
  · rintro ⟨fits, rfl, rest, rfl⟩
    by_cases small : length < 0x80
    · have value : (UInt8.ofNat length).toNat = length := UInt8.toNat_ofNat_of_lt (Nat.lt_trans small (by decide))
      have short : UInt8.ofNat length < 0x80 := UInt8.lt_iff_toNat_lt.mpr (value.symm ▸ small)
      rw [Der.lengthOctets, if_pos small, singleton_append, derLength, Slice.first, ok_bind, if_pos short, value]
      rfl
    · have long := longLength_minimalBytes (Nat.not_lt.mp small) fits
      obtain ⟨-, narrow, -⟩ := id long
      have marked : (UInt8.ofNat (0x80 + (Der.minimalBytes length).length)).toNat = 0x80 + (Der.minimalBytes length).length :=
        UInt8.toNat_ofNat_of_lt (Nat.lt_of_le_of_lt (Nat.add_le_add_left narrow _) (by decide))
      have large : ¬UInt8.ofNat (0x80 + (Der.minimalBytes length).length) < 0x80 := by
        rw [UInt8.lt_iff_toNat_lt, marked]
        exact Nat.not_lt.mpr (Nat.le_add_right _ _)
      rw [Der.lengthOctets, if_neg small, cons_append, derLength_long large]
      exact ⟨_, rest, rfl, long, marked.symm, Der.bigEndianNat_minimalBytes length, rfl⟩

namespace DerReader

theorem element_eq_ok {reader next : DerReader} {tag : UInt8} {contents : Bytes} : reader.element tag = .ok (contents, next) ↔
      contents.length < 256 ^ 4 ∧ reader.remaining = Der.element tag contents ++ next.remaining := by
  simp only [element, bind_eq_ok, exists_unit, require_eq_ok, Prod.exists, checkedAdd_eq_ok, derLength_eq_ok,
    Except.ok.injEq, Prod.mk.injEq]
  constructor
  · rintro ⟨tagged, body, opened, length, _, ⟨fits, rfl, rest, rfl⟩, _, ⟨-, rfl⟩, _, ⟨-, rfl⟩, part, taken, after, followed, rfl, rfl⟩
    obtain ⟨before, split, headed, size⟩ := split_of_get taken followed
    obtain ⟨marker, whole, single⟩ := getFrom_eq_ok.mp opened
    obtain ⟨byte, rfl⟩ := length_eq_one_iff.mp single
    rw [whole, singleton_append, List.head?_cons, Option.some.injEq] at tagged
    subst tagged
    have size : part.length = length := by omega
    have start : (byte :: Der.lengthOctets length) ++ rest = before ++ (part ++ after) := by
      rw [← append_assoc, ← split, whole]
      rfl
    obtain ⟨rfl, -⟩ := append_inj start (by rw [length_cons]; omega)
    rw [split, Der.element, size]
    exact ⟨fits, rfl⟩
  · rintro ⟨fits, whole⟩
    have small := Nat.lt_trans fits (by decide : 256 ^ 4 < usizeLimit - 6)
    have octets := Der.length_lengthOctets_le fits
    rw [Der.element, cons_append] at whole
    rw [whole]
    refine ⟨rfl, _, getFrom_eq_ok.mpr ⟨[tag], rfl, rfl⟩, contents.length, _, ⟨fits, rfl, contents ++ next.remaining, ?_⟩, _, ⟨?_, rfl⟩,
      _, ⟨?_, rfl⟩, contents, ?_, next.remaining, ?_, rfl, rfl⟩
    · exact append_assoc _ _ _
    · omega
    · omega
    · refine get_eq_ok.mpr ⟨tag :: Der.lengthOctets contents.length, next.remaining, ?_, ?_, ?_, ?_⟩
      · simp
      · rw [length_cons, Nat.add_comm]
      · omega
      · omega
    · refine getFrom_eq_ok.mpr ⟨tag :: (Der.lengthOctets contents.length ++ contents), rfl, ?_⟩
      rw [length_cons, length_append]
      omega

theorem sequence_eq_ok {input : Bytes} {reader : DerReader} :
    sequence input = .ok reader ↔ reader.remaining.length < 256 ^ 4 ∧ input = Der.element 0x30 reader.remaining := by
  simp only [sequence, finish, bind_eq_ok, exists_unit, require_eq_ok, Prod.exists, element_eq_ok, Except.ok.injEq]
  constructor
  · rintro ⟨contents, after, ⟨fits, whole⟩, finished, rfl⟩
    rw [finished, append_nil] at whole
    exact ⟨fits, whole⟩
  · rintro ⟨fits, whole⟩
    exact ⟨reader.remaining, ⟨[]⟩, ⟨fits, by rw [append_nil, whole]⟩, rfl, rfl⟩

end DerReader

theorem positiveInteger_eq_ok {bytes magnitude : Bytes} : positiveInteger bytes = .ok magnitude ↔
      magnitude ≠ [] ∧ magnitude.head? ≠ some 0 ∧ bytes = if Der.signed magnitude then 0 :: magnitude else magnitude := by
  constructor
  · intro read
    simp only [positiveInteger, bind_eq_ok, exists_unit, require_eq_ok] at read
    obtain ⟨nonempty, first, opened, clear, read⟩ := read
    obtain ⟨head, rest, rfl⟩ := exists_cons_of_ne_nil nonempty
    cases opened
    split at read
    next zero =>
      simp only [bind_eq_ok, exists_unit, require_eq_ok] at read
      obtain ⟨long, second, next, set, read⟩ := read
      subst zero
      cases rest with
      | nil => exact absurd long (by decide)
      | cons second rest =>
        cases next
        cases read
        have top : ¬second < 0x80 := fun low => set ((sign_clear second).mpr low)
        exact ⟨cons_ne_nil _ _, by rintro ⟨⟩; exact top (by decide), by simp [Der.signed, UInt8.not_lt.mp top]⟩
    next nonzero =>
      cases read
      exact ⟨nonempty, by simpa using nonzero, by simp [Der.signed, (sign_clear first).mp clear]⟩
  · rintro ⟨nonempty, lead, rfl⟩
    obtain ⟨head, rest, rfl⟩ := exists_cons_of_ne_nil nonempty
    have nonzero : head ≠ 0 := by simpa using lead
    by_cases low : head < 0x80
    · have clear := (sign_clear head).mpr low
      rw [if_neg (by simp [Der.signed, low])]
      simp [positiveInteger, index, require, clear, nonzero]
    · have set : ¬head &&& 0x80 = 0 := fun clear => low ((sign_clear head).mp clear)
      rw [if_pos (by simp [Der.signed, UInt8.not_lt.mp low])]
      simp [positiveInteger, index, indexFrom, require, set]

/-- The encoding of a public key for RSA, from the bytes of its two numbers. -/
def subjectPublicKeyInfo (key : RsaKey) : Bytes :=
  Der.element 0x30 (Der.element 0x30 rsaEncryptionIdentifier ++
    Der.element 0x03 (0 :: Der.element 0x30 (Der.positive key.modulus ++ Der.positive key.exponent)))

theorem length_padded_le (magnitude : Bytes) : (if Der.signed magnitude then 0 :: magnitude else magnitude).length ≤ magnitude.length + 1 := by
  split
  · rfl
  · exact Nat.le_succ _

theorem length_positive_le {magnitude : Bytes} (short : magnitude.length ≤ 1024) : (Der.positive magnitude).length ≤ 1031 := by
  have padded := length_padded_le magnitude
  have whole := @Der.length_element_le 0x02 _ (Nat.lt_of_le_of_lt padded (by omega))
  rw [← Der.positive] at whole
  omega

theorem parseSpki_eq_ok {input : Bytes} {key : RsaKey} :
    parseSpki input = .ok key ↔ input = subjectPublicKeyInfo key ∧ key.modulus.head? ≠ some 0 ∧ 256 ≤ key.modulus.length ∧
      key.modulus.length ≤ 1024 ∧ key.exponent = [0x01, 0x00, 0x01] := by
  simp only [parseSpki, DerReader.finish, bind_eq_ok, exists_unit, require_eq_ok, Prod.exists, DerReader.sequence_eq_ok,
    DerReader.element_eq_ok, positiveInteger_eq_ok, getFrom_eq_ok, Except.ok.injEq]
  constructor
  · rintro ⟨outer, ⟨-, rfl⟩, _, second, ⟨-, algorithm⟩, rfl, bits, third, ⟨-, rest⟩, finished, padded, inner, ⟨before, whole, single⟩,
      rsa, ⟨-, rfl⟩, first, tail, ⟨-, numbers⟩, modulus, ⟨-, lead, rfl⟩, last, final, ⟨-, exponents⟩, exponent, ⟨-, -, rfl⟩, done, range, rfl⟩
    obtain ⟨byte, rfl⟩ := length_eq_one_iff.mp single
    rw [whole, singleton_append, List.head?_cons, Option.some.injEq] at padded
    refine ⟨?_, lead, range⟩
    rw [algorithm, rest, finished, whole, padded, numbers, exponents, done, append_nil, append_nil]
    rfl
  · obtain ⟨modulus, exponent⟩ := key
    rintro ⟨rfl, lead, long, short, rfl⟩
    dsimp only at lead long short
    have first := length_padded_le modulus
    have modulusBound := @length_positive_le modulus short
    have exponentBound := @length_positive_le [0x01, 0x00, 0x01] (by decide)
    have numbers : (Der.positive modulus ++ Der.positive [0x01, 0x00, 0x01]).length < 256 ^ 4 := by
      rw [length_append]
      omega
    have inner := @Der.length_element_le 0x30 _ numbers
    rw [length_append] at inner
    have bits : (0 :: Der.element 0x30 (Der.positive modulus ++ Der.positive [0x01, 0x00, 0x01])).length < 256 ^ 4 := by
      rw [length_cons]
      omega
    have string := @Der.length_element_le 0x03 _ bits
    have algorithm : (Der.element 0x30 rsaEncryptionIdentifier).length ≤ 19 := Der.length_element_le (by decide)
    rw [length_cons] at string
    refine ⟨⟨_⟩, ⟨?_, rfl⟩, _, ⟨_⟩, ⟨by decide, rfl⟩, rfl, _, ⟨[]⟩, ⟨bits, (append_nil _).symm⟩, rfl, rfl, _, ⟨[0], rfl, rfl⟩,
      ⟨_⟩, ⟨numbers, rfl⟩, _, ⟨_⟩, ⟨by omega, rfl⟩, modulus, ⟨?_, lead, rfl⟩, _, ⟨[]⟩, ⟨by decide, (append_nil _).symm⟩, _,
      ⟨by decide, by decide, rfl⟩, rfl, ⟨long, short, rfl⟩, rfl⟩
    · dsimp only
      rw [length_append]
      omega
    · rintro rfl
      exact absurd long (by decide)

theorem sound_shortByte {width : Nat} {bytes : Bytes} (filled : width = 1 → bytes ≠ []) : Sound (shortByte width bytes) := by
  unfold shortByte
  split
  next single =>
    obtain ⟨first, rest, rfl⟩ := exists_cons_of_ne_nil (filled single)
    exact .ok _
  next => exact .ok _

theorem sound_derLength (input : Bytes) : Sound (derLength input) := by
  refine (Sound.first input).bind fun first _ => ?_
  split
  next => exact .ok _
  next =>
    refine (Sound.require _).bind fun _ sizes => ?_
    rw [require_eq_ok] at sizes
    have small : (first &&& 0x7f).toNat + 1 < usizeLimit := Nat.lt_of_le_of_lt (by omega) (by decide : 5 < usizeLimit)
    refine (Sound.add (Nat.add_comm _ _ ▸ small)).bind fun stop summed => ?_
    refine (Sound.get input 1 stop).bind fun bytes taken => ?_
    obtain ⟨-, rfl⟩ := add_eq_ok.mp summed
    obtain ⟨_, _, _, _, _, size⟩ := get_eq_ok.mp taken
    refine (Sound.require _).bind fun _ _ => (sound_shortByte ?_).bind fun _ _ => (Sound.require _).bind fun _ _ => ?_
    · rintro single rfl
      rw [length_nil] at size
      omega
    · exact (Sound.shiftedIn (by omega)).bind fun length _ => (Sound.add small).bind fun used _ => .ok _

theorem DerReader.sound_element (reader : DerReader) (tag : UInt8) : Sound (reader.element tag) := by
  refine (Sound.require _).bind fun _ _ => (Sound.getFrom _ _).bind fun tail _ => (sound_derLength tail).bind fun size _ => ?_
  refine (Sound.checkedAdd _ _).bind fun header _ => (Sound.checkedAdd _ _).bind fun stop _ => ?_
  exact (Sound.get _ _ _).bind fun contents _ => (Sound.getFrom _ _).bind fun rest _ => .ok _

theorem DerReader.sound_sequence (input : Bytes) : Sound (DerReader.sequence input) :=
  (DerReader.sound_element _ _).bind fun _ _ => (Sound.require _).bind fun _ _ => .ok _

theorem sound_positiveInteger (bytes : Bytes) : Sound (positiveInteger bytes) := by
  refine (Sound.require _).bind fun _ nonempty => ?_
  rw [require_eq_ok] at nonempty
  refine (Sound.index (length_pos_iff.mpr nonempty)).bind fun first _ => (Sound.require _).bind fun _ _ => ?_
  split
  next =>
    refine (Sound.require _).bind fun _ long => ?_
    rw [require_eq_ok] at long
    exact (Sound.index long).bind fun second _ => (Sound.require _).bind fun _ _ => Sound.indexFrom (Nat.le_of_succ_le long)
  next => exact .ok _

theorem sound_parseSpki (input : Bytes) : Sound (parseSpki input) := by
  refine (DerReader.sound_sequence input).bind fun outer _ => (outer.sound_element _).bind fun algorithm _ => ?_
  refine (Sound.require _).bind fun _ _ => (algorithm.2.sound_element _).bind fun bits _ => (Sound.require _).bind fun _ _ => ?_
  refine (Sound.require _).bind fun _ _ => (Sound.getFrom _ _).bind fun key _ => (DerReader.sound_sequence key).bind fun rsa _ => ?_
  refine (rsa.sound_element _).bind fun first _ => (sound_positiveInteger first.1).bind fun modulus _ => ?_
  refine (first.2.sound_element _).bind fun second _ => (sound_positiveInteger second.1).bind fun exponent _ => ?_
  exact (Sound.require _).bind fun _ _ => (Sound.require _).bind fun _ _ => .ok _

/-- A public key has one accepted spelling, which the key itself determines, and reading any bytes
neither leaves the slice nor wraps a length. -/
theorem spki_is_canonical (input other : Bytes) :
    (∀ key, parseSpki input = .ok key ↔ input = subjectPublicKeyInfo key ∧ key.modulus.head? ≠ some 0 ∧ 256 ≤ key.modulus.length ∧
      key.modulus.length ≤ 1024 ∧ key.exponent = [0x01, 0x00, 0x01]) ∧
    (∀ key same, parseSpki input = .ok key → parseSpki other = .ok same → key.modulus = same.modulus → key.exponent = same.exponent →
      input = other) ∧ parseSpki input ≠ .error .outOfBounds ∧ parseSpki input ≠ .error .wrapped := by
  refine ⟨fun key => parseSpki_eq_ok, ?_, ?_, ?_⟩
  · rintro ⟨modulus, exponent⟩ ⟨_, _⟩ first second rfl rfl
    exact (parseSpki_eq_ok.mp first).1.trans (parseSpki_eq_ok.mp second).1.symm
  · intro failed
    cases sound_parseSpki input _ failed
  · intro failed
    cases sound_parseSpki input _ failed

/-- A modulus of 2048 bits whose top bit is set. -/
def sampleKey : RsaKey := ⟨List.replicate 256 0xC5, [0x01, 0x00, 0x01]⟩

theorem spki_is_canonical_sample : parseSpki (subjectPublicKeyInfo sampleKey) = .ok sampleKey ∧
    ∀ other, parseSpki other = .ok sampleKey → subjectPublicKeyInfo sampleKey = other := by
  have accepted : parseSpki (subjectPublicKeyInfo sampleKey) = .ok sampleKey := by
    rw [parseSpki_eq_ok]
    exact ⟨rfl, by decide +kernel⟩
  exact ⟨accepted, fun other read => (spki_is_canonical _ other).2.1 sampleKey sampleKey accepted read rfl rfl⟩

end Retonr.PublicKey
