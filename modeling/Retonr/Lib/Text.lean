import Mathlib

/-! UTF-8 text as a list of scalar values. Positions in a text are byte offsets,
as they are in the encoded form, so every slice below counts encoded bytes. -/

namespace Retonr
open List

abbrev Text := List Char

instance Text.lawfulBEq : LawfulBEq Text := inferInstance

abbrev Bytes := List UInt8

def usizeLimit : Nat := 2 ^ 64

namespace Text

def byteLen : Text → Nat
  | [] => 0
  | char :: rest => char.utf8Size + byteLen rest

/-- The characters from byte `offset` on. An offset inside a character drops
that character, and an offset past the end leaves nothing. -/
def dropBytes (offset : Nat) : Text → Text
  | [] => []
  | char :: rest => if offset = 0 then char :: rest else dropBytes (offset - char.utf8Size) rest

def takeBytes (offset : Nat) : Text → Text
  | [] => []
  | char :: rest => if offset = 0 then [] else char :: takeBytes (offset - char.utf8Size) rest

def slice (text : Text) (start stop : Nat) : Text := takeBytes (stop - start) (dropBytes start text)

/-- The tail at a byte offset, when the offset is a character boundary. -/
def getFrom : Nat → Text → Option Text
  | 0, text => some text
  | _ + 1, [] => none
  | offset + 1, char :: rest =>
      if char.utf8Size ≤ offset + 1 then getFrom (offset + 1 - char.utf8Size) rest else none

def isCharBoundary (text : Text) (offset : Nat) : Bool := (getFrom offset text).isSome

def encode (text : Text) : Bytes := text.flatMap String.utf8EncodeChar

private def decodeFuel : Nat → Nat → Bytes → Except Nat Text
  | _, _, [] => .ok []
  | 0, valid, _ :: _ => .error valid
  | fuel + 1, valid, byte :: bytes =>
      match (byte :: bytes).toByteArray.utf8DecodeChar? 0 with
      | none => .error valid
      | some char => (decodeFuel fuel (valid + char.utf8Size) ((byte :: bytes).drop char.utf8Size)).map (char :: ·)

/-- Strict UTF-8 decoding. A failure reports the length of the valid start. -/
def decode (bytes : Bytes) : Except Nat Text := decodeFuel bytes.length 0 bytes

def toAsciiLowercase (value : Text) : Text := value.map Char.toLower

def eqIgnoreAsciiCase (left right : Text) : Bool := toAsciiLowercase left == toAsciiLowercase right

@[simp] theorem byteLen_nil : byteLen [] = 0 := rfl

@[simp] theorem byteLen_cons (char : Char) (rest : Text) : byteLen (char :: rest) = char.utf8Size + byteLen rest := rfl

@[simp] theorem byteLen_append (first second : Text) : byteLen (first ++ second) = byteLen first + byteLen second := by
  induction first with
  | nil => simp
  | cons char rest ih => simp [ih, Nat.add_assoc]

theorem length_le_byteLen (text : Text) : text.length ≤ byteLen text := by
  induction text with
  | nil => simp
  | cons char rest ih =>
    have positive := char.utf8Size_pos
    simp only [length_cons, byteLen_cons]
    omega

theorem byteLen_le_length (text : Text) : byteLen text ≤ 4 * text.length := by
  induction text with
  | nil => simp
  | cons char rest ih =>
    have size := char.utf8Size_le_four
    simp only [length_cons, byteLen_cons]
    omega

variable {text : Text}

theorem byteLen_eq_length (narrow : ∀ char ∈ text, char.utf8Size = 1) : byteLen text = text.length := by
  induction text with
  | nil => rfl
  | cons char text ih =>
    obtain ⟨first, others⟩ := forall_mem_cons.mp narrow
    rw [byteLen_cons, length_cons, first, ih others, Nat.add_comm]

theorem eq_nil_of_byteLen_eq_zero (empty : byteLen text = 0) : text = [] := by
  have bound := length_le_byteLen text
  exact eq_nil_of_length_eq_zero (by omega)

@[simp] theorem length_encode (text : Text) : (encode text).length = byteLen text := by
  induction text with
  | nil => rfl
  | cons char rest ih => simpa [encode] using ih

@[simp] theorem dropBytes_zero (text : Text) : dropBytes 0 text = text := by
  cases text <;> simp [dropBytes]

@[simp] theorem takeBytes_zero (text : Text) : takeBytes 0 text = [] := by
  cases text <;> simp [takeBytes]

theorem dropBytes_add (first rest : Text) (offset : Nat) : dropBytes (byteLen first + offset) (first ++ rest) = dropBytes offset rest := by
  induction first with
  | nil => simp
  | cons char tail ih =>
    have positive := char.utf8Size_pos
    have nonzero : char.utf8Size + byteLen tail + offset ≠ 0 := by omega
    have shorter : char.utf8Size + byteLen tail + offset - char.utf8Size = byteLen tail + offset := by omega
    simp only [byteLen_cons, cons_append, dropBytes, nonzero, if_false, shorter, ih]

@[simp] theorem dropBytes_append (first rest : Text) : dropBytes (byteLen first) (first ++ rest) = rest := by
  simpa using dropBytes_add first rest 0

@[simp] theorem takeBytes_append (first rest : Text) : takeBytes (byteLen first) (first ++ rest) = first := by
  induction first with
  | nil => simp
  | cons char tail ih =>
    have positive := char.utf8Size_pos
    have nonzero : char.utf8Size + byteLen tail ≠ 0 := by omega
    have shorter : char.utf8Size + byteLen tail - char.utf8Size = byteLen tail := by omega
    simp only [byteLen_cons, cons_append, takeBytes, nonzero, if_false, shorter, ih]

theorem slice_append (before middle after : Text) :
    slice (before ++ middle ++ after) (byteLen before) (byteLen before + byteLen middle) = middle := by
  simp only [slice, append_assoc, dropBytes_append, Nat.add_sub_cancel_left, takeBytes_append]

theorem encode_cons (char : Char) (rest : Text) : encode (char :: rest) = String.utf8EncodeChar char ++ encode rest := rfl

private theorem utf8DecodeChar_append (char : Char) (rest : Bytes) :
    (String.utf8EncodeChar char ++ rest).toByteArray.utf8DecodeChar? 0 = some char := by
  rw [toByteArray_append]
  exact ByteArray.utf8DecodeChar?_utf8EncodeChar_append

private theorem decodeFuel_encode (text : Text) (fuel valid : Nat) (enough : text.length ≤ fuel) :
    decodeFuel fuel valid (encode text) = .ok text := by
  induction text generalizing fuel valid with
  | nil => cases fuel <;> rfl
  | cons char rest ih =>
    obtain ⟨fuel, rfl⟩ : ∃ more, fuel = more + 1 := ⟨fuel - 1, by simp at enough; omega⟩
    have first := utf8DecodeChar_append char (encode rest)
    rw [← encode_cons] at first
    have tail : (encode (char :: rest)).drop char.utf8Size = encode rest := by
      rw [encode_cons, ← String.length_utf8EncodeChar, drop_left]
    have nonempty : encode (char :: rest) ≠ [] := by
      intro empty
      have size := congrArg List.length empty
      have positive := char.utf8Size_pos
      simp only [length_encode, byteLen_cons, length_nil] at size
      omega
    obtain ⟨byte, bytes, split⟩ := exists_cons_of_ne_nil nonempty
    rw [split] at first tail ⊢
    simp only [decodeFuel, first, tail]
    rw [ih fuel (valid + char.utf8Size) (by simpa using enough)]
    rfl

@[simp] theorem decode_encode (text : Text) : decode (encode text) = .ok text :=
  decodeFuel_encode text _ 0 (by simpa using length_le_byteLen text)

variable {bytes : Bytes} {char : Char}

/-- What decodes starts with the encoding of the character that was read. -/
private theorem utf8EncodeChar_append_of_decode (first : bytes.toByteArray.utf8DecodeChar? 0 = some char) :
    String.utf8EncodeChar char ++ bytes.drop char.utf8Size = bytes := by
  obtain ⟨rest, shape⟩ := ByteArray.exists_of_utf8DecodeChar?_eq_some first
  have split : bytes = String.utf8EncodeChar char ++ rest.data.toList := by
    have data := congrArg (fun array => array.data.toList) shape
    simpa [data_toByteArray, ByteArray.data_append] using data
  rw [split, ← String.length_utf8EncodeChar, drop_left]

private theorem decodeFuel_sound {fuel valid : Nat} (decoded : decodeFuel fuel valid bytes = .ok text) : encode text = bytes := by
  induction fuel generalizing valid bytes text with
  | zero =>
    cases bytes with
    | nil =>
      cases decoded
      rfl
    | cons byte bytes => cases decoded
  | succ fuel ih =>
    cases bytes with
    | nil =>
      cases decoded
      rfl
    | cons byte bytes =>
      simp only [decodeFuel] at decoded
      split at decoded
      · cases decoded
      next char first =>
        cases tail : decodeFuel fuel (valid + char.utf8Size) ((byte :: bytes).drop char.utf8Size) with
        | error fault =>
          rw [tail] at decoded
          cases decoded
        | ok rest =>
          rw [tail] at decoded
          cases decoded
          rw [encode_cons, ih tail, utf8EncodeChar_append_of_decode first]

theorem encode_of_decode (decoded : decode bytes = .ok text) : encode text = bytes :=
  decodeFuel_sound decoded

/-- A text whose encoding starts with that of a character starts with the character. -/
theorem encode_injective {left right : Text} (same : encode left = encode right) : left = right := by
  have decoded := congrArg decode same
  simpa using decoded

theorem head_of_encode (leading : String.utf8EncodeChar char <+: encode text) : text.head? = some char := by
  obtain ⟨rest, shape⟩ := leading
  have first := utf8DecodeChar_append char rest
  rw [shape] at first
  cases text with
  | nil =>
    have size := congrArg List.length shape
    have positive := char.utf8Size_pos
    simp only [length_append, String.length_utf8EncodeChar, length_encode, byteLen_nil] at size
    omega
  | cons other tail =>
    have again := utf8DecodeChar_append other (encode tail)
    rw [← encode_cons, first] at again
    simpa using again.symm

variable {byte : UInt8}

private theorem toNat_lt_of_mem_utf8EncodeChar (member : byte ∈ String.utf8EncodeChar char) : byte.toNat < 0xF8 := by
  simp only [String.utf8EncodeChar] at member
  split at member
  · simp only [mem_singleton] at member
    subst member
    simp only [UInt8.toNat_ofNat']
    omega
  split at member
  · simp only [mem_cons, not_mem_nil, or_false] at member
    rcases member with rfl | rfl <;> simp only [UInt8.toNat_ofNat'] <;> omega
  split at member
  · simp only [mem_cons, not_mem_nil, or_false] at member
    rcases member with rfl | rfl | rfl <;> simp only [UInt8.toNat_ofNat'] <;> omega
  · simp only [mem_cons, not_mem_nil, or_false] at member
    rcases member with rfl | rfl | rfl | rfl <;> simp only [UInt8.toNat_ofNat'] <;> omega

/-- No encoded text contains the bytes that only a UTF-16 mark uses. -/
theorem toNat_lt_of_mem_encode (member : byte ∈ encode text) : byte.toNat < 0xF8 := by
  obtain ⟨char, _, inside⟩ := mem_flatMap.mp member
  exact toNat_lt_of_mem_utf8EncodeChar inside

@[simp] theorem getFrom_append (first rest : Text) : getFrom (byteLen first) (first ++ rest) = some rest := by
  induction first with
  | nil => simp [getFrom]
  | cons char tail ih =>
    have positive := char.utf8Size_pos
    obtain ⟨size, sum⟩ : ∃ size, byteLen (char :: tail) = size + 1 := ⟨byteLen (char :: tail) - 1, by simp only [byteLen_cons]; omega⟩
    have fits : char.utf8Size ≤ size + 1 := by
      simp only [byteLen_cons] at sum
      omega
    have left : size + 1 - char.utf8Size = byteLen tail := by
      simp only [byteLen_cons] at sum
      omega
    rw [sum, cons_append]
    simp only [getFrom, fits, if_true, left, ih]

/-- Of two starts of one text, the shorter one starts the longer one. -/
theorem prefix_of_byteLen_le {first second : Text} (left : first <+: text) (right : second <+: text)
    (shorter : byteLen first ≤ byteLen second) : first <+: second := by
  rcases prefix_or_prefix_of_prefix left right with leading | ⟨rest, rfl⟩
  · exact leading
  · have empty : byteLen rest = 0 := by
      simp only [byteLen_append] at shorter
      omega
    simp [eq_nil_of_byteLen_eq_zero empty]

/-- The surface stands between these two byte offsets of the text. -/
def Occupies (text : Text) (start stop : Nat) (surface : Text) : Prop :=
  ∃ before after, text = before ++ surface ++ after ∧ start = byteLen before ∧ stop = byteLen before + byteLen surface

namespace Occupies

variable {text surface : Text} {start stop : Nat}

theorem slice_eq (occupies : Occupies text start stop surface) : slice text start stop = surface := by
  obtain ⟨before, after, rfl, rfl, rfl⟩ := occupies
  exact slice_append before surface after

theorem boundaries (occupies : Occupies text start stop surface) : isCharBoundary text start = true ∧ isCharBoundary text stop = true := by
  obtain ⟨before, after, rfl, rfl, rfl⟩ := occupies
  have first := getFrom_append before (surface ++ after)
  have last := getFrom_append (before ++ surface) after
  rw [← append_assoc] at first
  rw [byteLen_append] at last
  simp only [isCharBoundary, first, last, Option.isSome_some, and_self]

/-- A span that ends behind the start of a character ends behind the character. -/
theorem char_le_stop (occupies : Occupies text start stop surface) {before after : Text} {char : Char}
    (shape : text = before ++ char :: after) (begun : byteLen before < stop) : byteLen before + char.utf8Size ≤ stop := by
  obtain ⟨front, back, split, _, rfl⟩ := occupies
  rw [← byteLen_append] at begun ⊢
  have opens : before <+: text := ⟨char :: after, shape.symm⟩
  have covers : front ++ surface <+: text := ⟨back, split.symm⟩
  obtain ⟨more, sum⟩ := prefix_of_byteLen_le opens covers (Nat.le_of_lt begun)
  rw [← sum, byteLen_append] at begun ⊢
  cases more with
  | nil => simp at begun
  | cons next more =>
    rw [split, ← sum, append_assoc, append_cancel_left_eq, cons_append] at shape
    rw [(List.cons.inj shape).1, byteLen_cons]
    omega

theorem start_lt (occupies : Occupies text start stop surface) (nonempty : surface ≠ []) : start < stop := by
  obtain ⟨before, after, rfl, rfl, rfl⟩ := occupies
  have positive := length_pos_of_ne_nil nonempty
  have bound := length_le_byteLen surface
  omega

end Occupies

/-- Disjoint spans in order that contain every character of a class contain exactly those characters. -/
theorem filter_of_spans (wanted : Char → Bool) {α : Type} (start stop : α → Nat) (surface : α → Text) (text : Text) (spans : List α)
    (ordered : spans.Pairwise fun span later => stop span ≤ start later)
    (occupied : ∀ span ∈ spans, Occupies text (start span) (stop span) (surface span)) (done rest : Text) (split : text = done ++ rest)
    (ahead : ∀ span ∈ spans, byteLen done ≤ start span)
    (covered : ∀ before char after, text = before ++ char :: after → byteLen done ≤ byteLen before → wanted char = true →
      ∃ span ∈ spans, start span ≤ byteLen before ∧ byteLen before < stop span) :
    rest.filter wanted = spans.flatMap fun span => (surface span).filter wanted := by
  -- Between the spans nothing is wanted, so each one accounts for the part of the text up to its end.
  induction spans generalizing done rest with
  | nil =>
    rw [flatMap_nil, filter_eq_nil_iff]
    intro char member want
    obtain ⟨front, after, rfl⟩ := append_of_mem member
    obtain ⟨_, impossible, _⟩ := covered (done ++ front) char after (by simp [split]) (by simp) want
    cases impossible
  | cons span spans ih =>
    obtain ⟨later, ordered⟩ := pairwise_cons.mp ordered
    obtain ⟨before, after, shape, begins, ends⟩ := occupied span mem_cons_self
    have opens : done <+: text := ⟨rest, split.symm⟩
    have leads : before <+: text := ⟨surface span ++ after, by simp [shape]⟩
    obtain ⟨gap, rfl⟩ := prefix_of_byteLen_le opens leads (by rw [← begins]; exact ahead span mem_cons_self)
    obtain rfl : rest = gap ++ surface span ++ after := by
      rw [split, append_assoc, append_assoc, append_cancel_left_eq] at shape
      rw [shape, append_assoc]
    have quiet : gap.filter wanted = [] := by
      rw [filter_eq_nil_iff]
      intro char member want
      obtain ⟨front, back, rfl⟩ := append_of_mem member
      obtain ⟨other, inside, begun, _⟩ := covered (done ++ front) char (back ++ surface span ++ after) (by simp [split]) (by simp) want
      have small : byteLen (done ++ front) < byteLen (done ++ (front ++ char :: back)) := by
        have positive := char.utf8Size_pos
        simp only [byteLen_append, byteLen_cons]
        omega
      rcases mem_cons.mp inside with rfl | inside
      · omega
      · have behind := later other inside
        omega
    have remaining := ih ordered (fun other member => occupied other (mem_cons_of_mem _ member)) (done ++ gap ++ surface span) after
      (by rw [split]; simp) (fun other member => by rw [byteLen_append, ← ends]; exact later other member) (by
        intro front char back whole beyond want
        rw [byteLen_append, ← ends] at beyond
        have far : byteLen done ≤ byteLen front := by
          rw [byteLen_append] at ends
          omega
        obtain ⟨other, inside, begun, unfinished⟩ := covered front char back whole far want
        rcases mem_cons.mp inside with rfl | inside
        · omega
        · exact ⟨other, inside, begun, unfinished⟩)
    rw [filter_append, filter_append, quiet, nil_append, flatMap_cons, remaining]

/-- Where a second surface starts within a first one, the rest of the first and the second start together. -/
theorem shared_start {before surface after laterBefore later laterAfter : Text} (first : text = before ++ surface ++ after)
    (second : text = laterBefore ++ later ++ laterAfter) (begun : byteLen before ≤ byteLen laterBefore)
    (unfinished : byteLen laterBefore < byteLen before + byteLen surface) :
    ∃ front shared, laterBefore = before ++ front ∧ surface = front ++ shared ∧ shared ≠ [] ∧ shared ++ after = later ++ laterAfter := by
  have leads : laterBefore <+: text := ⟨later ++ laterAfter, by simp [second]⟩
  have opens : before <+: text := ⟨surface ++ after, by simp [first]⟩
  obtain ⟨front, rfl⟩ := prefix_of_byteLen_le opens leads begun
  obtain ⟨shared, split⟩ := prefix_of_byteLen_le leads ⟨after, first.symm⟩ (by rw [byteLen_append before surface]; omega)
  rw [append_assoc, append_cancel_left_eq] at split
  subst split
  refine ⟨front, shared, rfl, rfl, ?_, ?_⟩
  · rintro rfl
    simp at unfinished
  · rw [first] at second
    simpa using second

/-- A second surface that starts within a first one ends within it too, or it runs over the end of the first. -/
theorem inside_or_straddles {before surface after laterBefore later laterAfter : Text} (first : text = before ++ surface ++ after)
    (second : text = laterBefore ++ later ++ laterAfter) (begun : byteLen before ≤ byteLen laterBefore)
    (unfinished : byteLen laterBefore < byteLen before + byteLen surface) :
    byteLen laterBefore + byteLen later ≤ byteLen before + byteLen surface ∨
      ∃ shared rest, shared ≠ [] ∧ shared <:+ surface ∧ later = shared ++ rest ∧ rest ≠ [] ∧ rest <+: after := by
  obtain ⟨front, shared, rfl, rfl, nonempty, together⟩ := shared_start first second begun unfinished
  by_cases inside : byteLen later ≤ byteLen shared
  · refine Or.inl ?_
    simp only [byteLen_append]
    omega
  · have opens : shared <+: later ++ laterAfter := ⟨after, together⟩
    obtain ⟨rest, rfl⟩ := prefix_of_byteLen_le opens (prefix_append later laterAfter) (by omega)
    refine Or.inr ⟨shared, rest, nonempty, suffix_append _ _, rfl, ?_, ⟨laterAfter, ?_⟩⟩
    · rintro rfl
      simp at inside
    · rw [append_assoc, append_cancel_left_eq] at together
      exact together.symm

theorem eq_append_of_isCharBoundary {offset : Nat} (boundary : isCharBoundary text offset = true) :
    ∃ first rest, text = first ++ rest ∧ byteLen first = offset := by
  induction text generalizing offset with
  | nil =>
    cases offset with
    | zero => exact ⟨[], [], rfl, rfl⟩
    | succ offset => simp [isCharBoundary, getFrom] at boundary
  | cons char tail ih =>
    cases offset with
    | zero => exact ⟨[], char :: tail, rfl, rfl⟩
    | succ offset =>
      simp only [isCharBoundary, getFrom] at boundary
      split at boundary
      next fits =>
        obtain ⟨first, rest, split, size⟩ := ih boundary
        refine ⟨char :: first, rest, by rw [split, cons_append], ?_⟩
        rw [byteLen_cons, size]
        omega
      next => simp at boundary

/-- A byte below the continuation bytes is the whole encoding of its character. -/
theorem toNat_eq_of_mem_utf8EncodeChar (member : byte ∈ String.utf8EncodeChar char) (ascii : byte.toNat < 0x80) : char.toNat = byte.toNat := by
  change char.val.toNat = byte.toNat
  simp only [String.utf8EncodeChar] at member
  split at member
  · simp only [mem_singleton] at member
    subst member
    simp only [UInt8.toNat_ofNat']
    omega
  split at member
  · simp only [mem_cons, not_mem_nil, or_false] at member
    rcases member with rfl | rfl <;> simp only [UInt8.toNat_ofNat'] at ascii <;> omega
  split at member
  · simp only [mem_cons, not_mem_nil, or_false] at member
    rcases member with rfl | rfl | rfl <;> simp only [UInt8.toNat_ofNat'] at ascii <;> omega
  · simp only [mem_cons, not_mem_nil, or_false] at member
    rcases member with rfl | rfl | rfl | rfl <;> simp only [UInt8.toNat_ofNat'] at ascii <;> omega

end Text

end Retonr
