import Retonr.Lib.Framing

/-! DER encodings: a tag, the shortest spelling of the length, the contents. -/

namespace Retonr.Der
open Framing List

/-- The bytes of a number without leading zeros, the most significant first. -/
def minimalBytes (value : Nat) : Bytes := (Nat.digits 256 value).reverse.map UInt8.ofNat

def lengthOctets (length : Nat) : Bytes :=
  if length < 0x80 then [UInt8.ofNat length] else UInt8.ofNat (0x80 + (minimalBytes length).length) :: minimalBytes length

def element (tag : UInt8) (contents : Bytes) : Bytes := tag :: (lengthOctets contents.length ++ contents)

def signed : Bytes → Bool
  | [] => false
  | byte :: _ => 0x80 ≤ byte

/-- A positive number by its bytes, kept apart from a negative one by a zero byte where that is needed. -/
def positive (magnitude : Bytes) : Bytes := element 0x02 (if signed magnitude then 0 :: magnitude else magnitude)

/-- Bytes without a leading zero are the only such spelling of their number. -/
theorem minimalBytes_bigEndianNat {bytes : Bytes} (lead : bytes.head? ≠ some 0) : minimalBytes (bigEndianNat bytes) = bytes := by
  have digits : Nat.digits 256 (bigEndianNat bytes) = (bytes.map UInt8.toNat).reverse := by
    rw [bigEndianNat_eq_ofDigits]
    apply Nat.digits_ofDigits 256 (by decide)
    · intro digit member
      obtain ⟨byte, -, rfl⟩ := mem_map.mp (mem_reverse.mp member)
      exact byte.toNat_lt
    · intro nonempty
      rw [getLast_reverse]
      cases bytes with
      | nil => exact absurd rfl nonempty
      | cons byte bytes =>
        intro zero
        apply lead
        simpa [← UInt8.toNat_inj] using zero
  rw [minimalBytes, digits, reverse_reverse, map_map]
  exact map_id'' (fun byte => UInt8.ofNat_toNat) bytes

theorem bigEndianNat_minimalBytes (value : Nat) : bigEndianNat (minimalBytes value) = value := by
  have digits : (minimalBytes value).map UInt8.toNat = (Nat.digits 256 value).reverse := by
    rw [minimalBytes, map_map]
    apply (map_congr_left _).trans (map_id _)
    intro digit member
    exact UInt8.toNat_ofNat_of_lt (Nat.digits_lt_base (by decide) (mem_reverse.mp member))
  rw [bigEndianNat_eq_ofDigits, digits, reverse_reverse, Nat.ofDigits_digits]

theorem head?_minimalBytes (value : Nat) : (minimalBytes value).head? ≠ some 0 := by
  intro zero
  rw [minimalBytes, List.head?_map, List.head?_reverse, Option.map_eq_some_iff] at zero
  obtain ⟨digit, last, zero⟩ := zero
  have digits : Nat.digits 256 value ≠ [] := ne_nil_of_mem (mem_of_getLast? last)
  have nonzero : value ≠ 0 := by
    rintro rfl
    exact digits (Nat.digits_zero 256)
  have small : digit < 256 := Nat.digits_lt_base (by decide) (mem_of_getLast? last)
  have same : digit = 0 := (UInt8.toNat_ofNat_of_lt small).symm.trans (congrArg UInt8.toNat zero)
  rw [List.getLast?_eq_getLast_of_ne_nil digits, Option.some.injEq] at last
  exact Nat.getLast_digit_ne_zero 256 nonzero (last.trans same)

theorem length_minimalBytes_le {value width : Nat} (fits : value < 256 ^ width) : (minimalBytes value).length ≤ width := by
  rw [minimalBytes, length_map, length_reverse]
  exact (Nat.digits_length_le_iff (by decide) value).mpr fits

theorem length_lengthOctets_le {length : Nat} (fits : length < 256 ^ 4) : (lengthOctets length).length ≤ 5 := by
  rw [lengthOctets]
  split
  · simp
  · exact Nat.succ_le_succ (length_minimalBytes_le fits)

theorem length_element_le {tag : UInt8} {contents : Bytes} (fits : contents.length < 256 ^ 4) :
    (element tag contents).length ≤ contents.length + 6 := by
  have octets := length_lengthOctets_le fits
  rw [element, length_cons, length_append]
  omega

end Retonr.Der
