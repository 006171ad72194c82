import Retonr.Lib.Except
import Retonr.Lib.Framing

/-! Byte slices as a program reads them. A range that may be missing is asked for and refused, while a
plain index or an unchecked sum is right only where it stays inside. The two ways it can go wrong are
outcomes of their own, so that a program can be shown never to reach them. -/

namespace Retonr.Slice
open List Retonr.Except

inductive Stop where
  | refused
  | outOfBounds
  | wrapped
  deriving DecidableEq

abbrev Reading (α : Type) := Except Stop α

/-- The range between two offsets, refused unless it lies inside. -/
def get (bytes : Bytes) (start stop : Nat) : Reading Bytes :=
  if start ≤ stop ∧ stop ≤ bytes.length then .ok ((bytes.drop start).take (stop - start)) else .error .refused

def getFrom (bytes : Bytes) (start : Nat) : Reading Bytes := if start ≤ bytes.length then .ok (bytes.drop start) else .error .refused

def first : Bytes → Reading UInt8
  | byte :: _ => .ok byte
  | [] => .error .refused

def getAt (bytes : Bytes) (position : Nat) : Reading UInt8 :=
  match bytes[position]? with
  | some byte => .ok byte
  | none => .error .refused

def array (size : Nat) (bytes : Bytes) : Reading Bytes := if bytes.length = size then .ok bytes else .error .refused

/-- A byte that the program takes to be there. -/
def index (bytes : Bytes) (position : Nat) : Reading UInt8 :=
  match bytes[position]? with
  | some byte => .ok byte
  | none => .error .outOfBounds

/-- A range that the program takes to be there, from an offset to the end or up to an offset. -/
def indexFrom (bytes : Bytes) (start : Nat) : Reading Bytes := if start ≤ bytes.length then .ok (bytes.drop start) else .error .outOfBounds

def indexTo (bytes : Bytes) (stop : Nat) : Reading Bytes := if stop ≤ bytes.length then .ok (bytes.take stop) else .error .outOfBounds

def range (bytes : Bytes) (start stop : Nat) : Reading Bytes :=
  if start ≤ stop ∧ stop ≤ bytes.length then .ok ((bytes.drop start).take (stop - start)) else .error .outOfBounds

def text (bytes : Bytes) : Reading Text :=
  match Text.decode bytes with
  | .ok decoded => .ok decoded
  | .error _ => .error .refused

def checkedAdd (left right : Nat) : Reading Nat := if left + right < usizeLimit then .ok (left + right) else .error .refused

def add (left right : Nat) : Reading Nat := if left + right < usizeLimit then .ok (left + right) else .error .wrapped

def mul (left right : Nat) : Reading Nat := if left * right < usizeLimit then .ok (left * right) else .error .wrapped

def shiftIn (value : Nat) (byte : UInt8) : Reading Nat :=
  if value * 256 < usizeLimit then .ok (value * 256 + byte.toNat) else .error .wrapped

/-- The loop that takes items off the front until nothing is left, and refuses to begin one more than allowed. -/
def chunks {α : Type} (step : Bytes → Reading (α × Bytes)) : Nat → Bytes → Reading (List α)
  | _, [] => .ok []
  | 0, _ :: _ => .error .refused
  | allowed + 1, byte :: bytes => do
      let (item, rest) ← step (byte :: bytes)
      let items ← chunks step allowed rest
      .ok (item :: items)

/-- The bytes are the parts of the items one after the other. -/
def Partitioned {α : Type} (part : α → Bytes → Prop) (items : List α) (bytes : Bytes) : Prop :=
  ∃ parts : List Bytes, bytes = parts.flatten ∧ List.Forall₂ part items parts

section

variable {bytes part rest : Bytes} {start stop left right sum : Nat} {byte : UInt8}

theorem get_eq_ok : get bytes start stop = .ok part ↔
    ∃ before after, bytes = before ++ part ++ after ∧ before.length = start ∧ start ≤ stop ∧ part.length = stop - start := by
  unfold get
  split
  next inside =>
    rw [Except.ok.injEq]
    constructor
    · rintro rfl
      refine ⟨bytes.take start, (bytes.drop start).drop (stop - start), ?_, ?_, inside.1, ?_⟩
      · rw [append_assoc, take_append_drop, take_append_drop]
      · rw [length_take]
        omega
      · rw [length_take, length_drop]
        omega
    · rintro ⟨before, after, rfl, rfl, -, length⟩
      rw [append_assoc, drop_left, ← length, take_left]
  next outside =>
    constructor
    · exact nofun
    · rintro ⟨before, after, rfl, rfl, ordered, length⟩
      simp only [length_append] at outside
      omega

theorem getFrom_eq_ok : getFrom bytes start = .ok rest ↔ ∃ before, bytes = before ++ rest ∧ before.length = start := by
  unfold getFrom
  split
  next inside =>
    rw [Except.ok.injEq]
    constructor
    · rintro rfl
      exact ⟨bytes.take start, (take_append_drop _ _).symm, by rw [length_take]; omega⟩
    · rintro ⟨before, rfl, rfl⟩
      exact drop_left
  next outside =>
    constructor
    · exact nofun
    · rintro ⟨before, rfl, rfl⟩
      simp only [length_append] at outside
      omega

theorem first_eq_ok : first bytes = .ok byte ↔ ∃ rest, bytes = byte :: rest := by
  cases bytes <;> simp [first, eq_comm]

theorem checkedAdd_eq_ok : checkedAdd left right = .ok sum ↔ left + right < usizeLimit ∧ left + right = sum := by
  unfold checkedAdd
  split <;> simp [*]

theorem add_eq_ok : add left right = .ok sum ↔ left + right < usizeLimit ∧ left + right = sum := by
  unfold add
  split <;> simp [*]

theorem split_of_get (taken : get bytes start stop = .ok part) (followed : getFrom bytes stop = .ok rest) :
    ∃ before, bytes = before ++ part ++ rest ∧ before.length = start ∧ part.length = stop - start := by
  obtain ⟨before, after, rfl, starts, ordered, length⟩ := get_eq_ok.mp taken
  obtain ⟨other, same, ends⟩ := getFrom_eq_ok.mp followed
  have lengths : (before ++ part).length = other.length := by
    rw [length_append]
    omega
  obtain ⟨-, rfl⟩ := append_inj same lengths
  exact ⟨before, rfl, starts, length⟩

theorem getAt_eq_ok : getAt bytes start = .ok byte ↔ bytes[start]? = some byte := by
  unfold getAt
  split <;> simp [*]

theorem mul_eq_ok {product : Nat} : mul left right = .ok product ↔ left * right < usizeLimit ∧ left * right = product := by
  unfold mul
  split <;> simp [*]

theorem index_eq_ok : index bytes start = .ok byte ↔ bytes[start]? = some byte := by
  unfold index
  split <;> simp [*]

theorem array_eq_ok {size : Nat} : array size bytes = .ok part ↔ bytes.length = size ∧ bytes = part := by
  unfold array
  split <;> simp [*]

theorem split_after {input front body after : Bytes} {length : Nat} (begun : input = front ++ rest) (sized : front.length = start)
    (taken : get input start (start + length) = .ok body) (followed : getFrom input (start + length) = .ok after) :
    input = front ++ body ++ after ∧ body.length = length := by
  obtain ⟨before, whole, starts, size⟩ := split_of_get taken followed
  rw [begun, append_assoc] at whole
  obtain ⟨rfl, rfl⟩ := append_inj whole (sized.trans starts.symm)
  exact ⟨by rw [begun, append_assoc], by omega⟩

theorem getFrom_of_get (taken : get bytes start stop = .ok part) (followed : getFrom bytes stop = .ok rest) :
    getFrom bytes start = .ok (part ++ rest) := by
  obtain ⟨before, whole, starts, -⟩ := split_of_get taken followed
  exact getFrom_eq_ok.mpr ⟨before, by rw [whole, append_assoc], starts⟩

theorem getFrom_of_index (found : index bytes start = .ok byte) (followed : getFrom bytes (start + 1) = .ok rest) :
    getFrom bytes start = .ok (byte :: rest) := by
  obtain ⟨inside, found⟩ := List.getElem?_eq_some_iff.mp (index_eq_ok.mp found)
  obtain ⟨before, whole, length⟩ := getFrom_eq_ok.mp followed
  have rest_eq : bytes.drop (start + 1) = rest := by rw [whole, ← length, drop_left]
  rw [getFrom, if_pos (Nat.le_of_lt inside), drop_eq_getElem_cons inside, found, rest_eq]

theorem append_of_indexTo (found : indexTo bytes stop = .ok part) (followed : getFrom bytes stop = .ok rest) : part ++ rest = bytes := by
  unfold indexTo at found
  unfold getFrom at followed
  split at found
  next inside =>
    rw [if_pos inside] at followed
    cases found
    cases followed
    exact take_append_drop _ _
  next => cases found

/-- A loop whose step accounts for the bytes it takes accounts for all of them. -/
theorem chunks_partitioned {α : Type} {step : Bytes → Reading (α × Bytes)} {frame : α → Bytes → Prop}
    (taken : ∀ {bytes item rest}, step bytes = .ok (item, rest) → ∃ part, bytes = part ++ rest ∧ frame item part)
    {allowed : Nat} {items : List α} {bytes : Bytes} (read : chunks step allowed bytes = .ok items) : Partitioned frame items bytes := by
  induction allowed generalizing bytes items with
  | zero =>
    cases bytes with
    | nil =>
      cases read
      exact ⟨[], rfl, .nil⟩
    | cons byte bytes => cases read
  | succ allowed ih =>
    cases bytes with
    | nil =>
      cases read
      exact ⟨[], rfl, .nil⟩
    | cons byte bytes =>
      obtain ⟨⟨item, rest⟩, here, read⟩ := bind_eq_ok.mp read
      obtain ⟨others, there, read⟩ := bind_eq_ok.mp read
      cases read
      obtain ⟨part, whole, framed⟩ := taken here
      obtain ⟨parts, rfl, matched⟩ := ih there
      exact ⟨part :: parts, by rw [whole, flatten_cons], .cons framed matched⟩

theorem foldlM_shiftIn {bytes : Bytes} (short : bytes.length ≤ 8) : bytes.foldlM shiftIn 0 = .ok (Framing.bigEndianNat bytes) := by
  have general : ∀ (bytes : Bytes) (width value : Nat), value < 256 ^ width → width + bytes.length ≤ 8 →
      bytes.foldlM shiftIn value = .ok (bytes.foldl (fun value byte => value * 256 + byte.toNat) value) := by
    intro bytes
    induction bytes with
    | nil => intro width value _ _; rfl
    | cons byte bytes ih =>
      intro width value small room
      rw [length_cons] at room
      have grown : value * 256 + byte.toNat < 256 ^ (width + 1) := by
        have bound := byte.toNat_lt
        rw [Nat.pow_succ]
        omega
      have fits : value * 256 < usizeLimit := by
        have wide : 256 ^ (width + 1) ≤ 256 ^ 8 := Nat.pow_le_pow_right (by decide) (by omega)
        have limit : usizeLimit = 256 ^ 8 := by simp [usizeLimit]
        rw [limit]
        exact Nat.lt_of_le_of_lt (Nat.le_add_right _ _) (Nat.lt_of_lt_of_le grown wide)
      have step : shiftIn value byte = .ok (value * 256 + byte.toNat) := by simp only [shiftIn, fits, if_true]
      rw [foldlM_cons, step]
      exact ih (width + 1) _ grown (by omega)
  exact general bytes 0 0 (by decide) (by omega)

end

/-! ### What stands where

What is read at consecutive offsets is what was written one after the other. -/

def Stands (bytes : Bytes) (offset : Nat) (part : Bytes) : Prop := part <+: bytes.drop offset

section

variable {bytes part first second : Bytes} {offset width : Nat} {byte : UInt8}

theorem stands_append : Stands bytes offset (first ++ second) ↔ Stands bytes offset first ∧ Stands bytes (offset + first.length) second := by
  unfold Stands
  rw [← drop_drop]
  constructor
  · rintro ⟨rest, shape⟩
    rw [← shape]
    exact ⟨⟨second ++ rest, by rw [append_assoc]⟩, ⟨rest, by rw [append_assoc, drop_left]⟩⟩
  · rintro ⟨⟨rest, shape⟩, later⟩
    rw [← shape, drop_left] at later
    rw [← shape]
    exact (prefix_append_right_inj first).mpr later

theorem Stands.stop_le (stands : Stands bytes offset part) (filled : part ≠ []) : offset + part.length ≤ bytes.length := by
  have fits := stands.length_le
  have positive := length_pos_iff.mpr filled
  rw [length_drop] at fits
  omega

theorem Stands.eq_append (stands : Stands bytes 0 part) : bytes = part ++ bytes.drop part.length := by
  obtain ⟨rest, shape⟩ := stands
  rw [drop_zero] at shape
  rw [← shape, drop_left]

theorem range_eq_ok_iff : range bytes offset (offset + width) = .ok part ↔
    offset + width ≤ bytes.length ∧ part.length = width ∧ Stands bytes offset part := by
  unfold range
  constructor
  · intro found
    split at found
    next inside =>
      rw [Except.ok.injEq, Nat.add_sub_cancel_left] at found
      subst found
      refine ⟨inside.2, ?_, take_prefix _ _⟩
      rw [length_take, length_drop]
      omega
    next => cases found
  · rintro ⟨inside, rfl, rest, shape⟩
    rw [if_pos ⟨by omega, inside⟩, Nat.add_sub_cancel_left, ← shape, take_left]

theorem get_eq_ok_iff : get bytes offset (offset + width) = .ok part ↔
    offset + width ≤ bytes.length ∧ part.length = width ∧ Stands bytes offset part := by
  rw [← range_eq_ok_iff]
  unfold get range
  split <;> simp

/-- A range that is not empty needs no bound of its own. -/
theorem range_eq_ok (positive : 0 < width) : range bytes offset (offset + width) = .ok part ↔ part.length = width ∧ Stands bytes offset part := by
  rw [range_eq_ok_iff]
  constructor
  · exact And.right
  · intro ⟨length, stands⟩
    have fits := stands.stop_le (length_pos_iff.mp (length ▸ positive))
    exact ⟨length ▸ fits, length, stands⟩

theorem get_eq_ok_iff_stands (positive : 0 < width) : get bytes offset (offset + width) = .ok part ↔ part.length = width ∧ Stands bytes offset part := by
  rw [get_eq_ok_iff, ← range_eq_ok_iff, range_eq_ok positive]

theorem indexFrom_eq_ok {rest : Bytes} : indexFrom bytes offset = .ok rest ↔ ∃ before, bytes = before ++ rest ∧ before.length = offset := by
  rw [← getFrom_eq_ok]
  unfold indexFrom getFrom
  split <;> simp

theorem index_eq_ok_iff_stands : index bytes offset = .ok byte ↔ Stands bytes offset [byte] := by
  unfold Stands
  rw [index_eq_ok, ← List.head?_drop]
  cases bytes.drop offset with
  | nil => simp
  | cons other rest => simp [cons_prefix_cons, eq_comm]

theorem Stands.eq_append_indexFrom {rest : Bytes} (stands : Stands bytes 0 part) (followed : indexFrom bytes part.length = .ok rest) :
    bytes = part ++ rest := by
  obtain ⟨before, whole, length⟩ := indexFrom_eq_ok.mp followed
  obtain ⟨after, shape⟩ := stands
  rw [drop_zero, whole] at shape
  obtain ⟨rfl, -⟩ := append_inj shape length.symm
  exact whole

theorem indexFrom_append {rest : Bytes} : indexFrom (part ++ rest) part.length = .ok rest := indexFrom_eq_ok.mpr ⟨part, rfl, rfl⟩

theorem indexFrom_of_stands (stands : Stands bytes offset part) (ends : bytes.length = offset + part.length) : indexFrom bytes offset = .ok part := by
  have length : part.length = (bytes.drop offset).length := by
    rw [length_drop]
    omega
  rw [indexFrom, if_pos (by omega), List.IsPrefix.eq_of_length stands length]

theorem stands_self_append {rest : Bytes} : Stands (part ++ rest) 0 part := by
  unfold Stands
  exact prefix_append _ _

theorem text_eq_ok {decoded : Text} : text bytes = .ok decoded ↔ bytes = Text.encode decoded := by
  unfold text
  constructor
  · intro found
    split at found
    next value read =>
      cases found
      exact (Text.encode_of_decode read).symm
    next => cases found
  · rintro rfl
    rw [Text.decode_encode]

end

/-- A reading that goes wrong in no other way than by a refusal. -/
def Sound {α : Type} (reading : Reading α) : Prop := ∀ stop, reading = .error stop → stop = .refused

namespace Sound

variable {α β : Type}

theorem ok (value : α) : Sound (.ok value : Reading α) := fun _ failed => by cases failed

theorem refused : Sound (.error .refused : Reading α) := fun _ failed => by cases failed; rfl

theorem bind {reading : Reading α} {next : α → Reading β} (sound : Sound reading) (later : ∀ value, reading = .ok value → Sound (next value)) :
    Sound (reading >>= next) := by
  intro stop failed
  rcases bind_eq_error.mp failed with here | ⟨value, read, there⟩
  · exact sound stop here
  · exact later value read stop there

theorem require (condition : Prop) [Decidable condition] : Sound (require condition Stop.refused) := by
  intro stop failed
  exact (require_eq_error.mp failed).2.symm

theorem get (bytes : Bytes) (start stop : Nat) : Sound (get bytes start stop) := by
  unfold Slice.get
  split
  · exact ok _
  · exact refused

theorem getFrom (bytes : Bytes) (start : Nat) : Sound (getFrom bytes start) := by
  unfold Slice.getFrom
  split
  · exact ok _
  · exact refused

theorem first (bytes : Bytes) : Sound (first bytes) := by
  cases bytes
  · exact refused
  · exact ok _

theorem checkedAdd (left right : Nat) : Sound (checkedAdd left right) := by
  unfold Slice.checkedAdd
  split
  · exact ok _
  · exact refused

theorem index {bytes : Bytes} {position : Nat} (inside : position < bytes.length) : Sound (index bytes position) := by
  unfold Slice.index
  rw [List.getElem?_eq_getElem inside]
  exact ok _

theorem indexFrom {bytes : Bytes} {start : Nat} (inside : start ≤ bytes.length) : Sound (indexFrom bytes start) := by
  unfold Slice.indexFrom
  rw [if_pos inside]
  exact ok _

theorem add {left right : Nat} (fits : left + right < usizeLimit) : Sound (add left right) := by
  unfold Slice.add
  rw [if_pos fits]
  exact ok _

theorem shiftedIn {bytes : Bytes} (short : bytes.length ≤ 8) : Sound (bytes.foldlM shiftIn 0) := by
  rw [foldlM_shiftIn short]
  exact ok _

end Sound

end Retonr.Slice
