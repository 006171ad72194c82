import Retonr.Engine.Lint

/-! The prepared lists answer what a search of the whole text would. -/

namespace Retonr
open Text List List

/-! ### Quotations -/

theorem extendEnds_append (maximumEnd : Nat) (first rest : List ByteRange) : extendEnds maximumEnd (first ++ rest) =
      extendEnds maximumEnd first ++ extendEnds (first.foldl (fun reach span => max reach span.stop) maximumEnd) rest := by
  induction first generalizing maximumEnd with
  | nil => rfl
  | cons span spans ih => simp only [cons_append, extendEnds, foldl_cons, ih]

theorem length_extendEnds (maximumEnd : Nat) (spans : List ByteRange) : (extendEnds maximumEnd spans).length = spans.length := by
  induction spans generalizing maximumEnd with
  | nil => rfl
  | cons span spans ih => rw [extendEnds, length_cons, length_cons, ih]

theorem exists_start_of_mem_extendEnds {maximumEnd : Nat} {spans : List ByteRange} {extended : ByteRange}
    (member : extended ∈ extendEnds maximumEnd spans) : ∃ span ∈ spans, span.start = extended.start := by
  induction spans generalizing maximumEnd with
  | nil => simp [extendEnds] at member
  | cons span spans ih =>
    rw [extendEnds, mem_cons] at member
    rcases member with rfl | later
    · exact ⟨span, mem_cons_self, rfl⟩
    · obtain ⟨found, inside, same⟩ := ih later
      exact ⟨found, mem_cons_of_mem _ inside, same⟩

theorem le_last_extendEnds {spans : List ByteRange} (stop maximumEnd : Nat) :
    (extendEnds maximumEnd spans)[spans.length - 1]?.any (fun span => decide (stop ≤ span.stop)) = true ↔
      spans ≠ [] ∧ (stop ≤ maximumEnd ∨ ∃ span ∈ spans, stop ≤ span.stop) := by
  induction spans generalizing maximumEnd with
  | nil => simp [extendEnds]
  | cons span spans ih =>
    rcases spans with _ | ⟨next, spans⟩
    · simp [extendEnds]
    · have shifted := ih (max maximumEnd span.stop)
      simp only [length_cons, Nat.add_sub_cancel] at shifted ⊢
      rw [extendEnds, getElem?_cons_succ, shifted]
      simp only [le_max_iff, mem_cons, exists_eq_or_imp, ne_eq, reduceCtorEq, not_false_eq_true, true_and, or_assoc]

theorem isInsideQuotes_extendEnds {start stop : Nat} {first rest : List ByteRange} (early : ∀ span ∈ first, span.start ≤ start)
    (late : ∀ span ∈ rest, start < span.start) :
    isInsideQuotes start stop (extendEnds 0 (first ++ rest)) = true ↔ ∃ span ∈ first, stop ≤ span.stop := by
  have position : partitionPoint (fun span => decide (span.start ≤ start)) (extendEnds 0 (first ++ rest)) = first.length := by
    rw [extendEnds_append, partitionPoint_append, length_extendEnds]
    · intro extended member
      obtain ⟨span, inside, same⟩ := exists_start_of_mem_extendEnds member
      exact decide_eq_true (same ▸ early span inside)
    · intro extended member
      obtain ⟨span, inside, same⟩ := exists_start_of_mem_extendEnds member
      have beyond := late span inside
      exact decide_eq_false (by omega)
  rw [isInsideQuotes, position, Bool.and_eq_true, decide_eq_true_eq]
  by_cases empty : first = []
  · simp [empty]
  · have positive := length_pos_iff.mpr empty
    rw [extendEnds_append, getElem?_append_left (by rw [length_extendEnds]; omega), le_last_extendEnds]
    constructor
    · rintro ⟨-, -, whole | reached⟩
      · obtain ⟨span, member⟩ := exists_mem_of_ne_nil first empty
        exact ⟨span, member, by omega⟩
      · exact reached
    · intro reached
      exact ⟨positive, empty, .inr reached⟩

theorem exists_split_at (start : Nat) {spans : List ByteRange} (sorted : spans.Pairwise fun span other => span.start ≤ other.start) :
    ∃ first rest, spans = first ++ rest ∧ (∀ span ∈ first, span.start ≤ start) ∧ ∀ span ∈ rest, start < span.start := by
  induction spans with
  | nil => exact ⟨[], [], rfl, by simp, by simp⟩
  | cons span spans ih =>
    obtain ⟨least, tail⟩ := pairwise_cons.mp sorted
    by_cases early : span.start ≤ start
    · obtain ⟨first, rest, split, before, after⟩ := ih tail
      refine ⟨span :: first, rest, by rw [split, cons_append], ?_, after⟩
      intro found member
      rcases mem_cons.mp member with rfl | later
      · exact early
      · exact before found later
    · refine ⟨[], span :: spans, rfl, by simp, ?_⟩
      intro found member
      rcases mem_cons.mp member with rfl | later
      · omega
      · have beyond := least found later
        omega

/-- A range counts as quoted exactly when one quotation of the text holds the whole of it. -/
theorem is_inside_quotes_iff (text : Text) (start stop : Nat) :
    isInsideQuotes start stop (quotedSpans text) = true ↔ ∃ span ∈ pairedQuotes text, span.start ≤ start ∧ stop ≤ span.stop := by
  have sorted : ((pairedQuotes text).mergeSort fun span other => decide (span.start ≤ other.start)).Pairwise
      fun span other => span.start ≤ other.start := by
    have ordered := @pairwise_mergeSort _ (fun span other : ByteRange => decide (span.start ≤ other.start))
      (by simp only [decide_eq_true_eq]; omega) (by simp only [Bool.or_eq_true, decide_eq_true_eq]; omega) (pairedQuotes text)
    exact ordered.imp (by simp)
  obtain ⟨first, rest, split, early, late⟩ := exists_split_at start sorted
  have found : ∀ span, span ∈ pairedQuotes text ↔ span ∈ first ∨ span ∈ rest := by
    intro span
    rw [← mem_append, ← split, mem_mergeSort]
  rw [quotedSpans, split, isInsideQuotes_extendEnds early late]
  constructor
  · rintro ⟨span, member, reaches⟩
    exact ⟨span, (found span).mpr (.inl member), early span member, reaches⟩
  · rintro ⟨span, member, before, reaches⟩
    rcases (found span).mp member with inside | outside
    · exact ⟨span, inside, reaches⟩
    · have beyond := late span outside
      omega

/-! ### Lines -/

/-- The offsets behind the line feeds of a text that begins at the given one. -/
def lineStarts : Nat → Text → List Nat
  | _, [] => []
  | offset, char :: rest =>
      (if char = '\n' then [offset + char.utf8Size] else []) ++ lineStarts (offset + char.utf8Size) rest

theorem lineStarts_append (offset : Nat) (first rest : Text) :
    lineStarts offset (first ++ rest) = lineStarts offset first ++ lineStarts (offset + byteLen first) rest := by
  induction first generalizing offset with
  | nil => rfl
  | cons char tail ih =>
    simp only [cons_append, lineStarts, byteLen_cons, ih, append_assoc, Nat.add_assoc]

theorem mem_lineStarts {offset start : Nat} {text : Text} (member : start ∈ lineStarts offset text) :
    offset < start ∧ start ≤ offset + byteLen text := by
  induction text generalizing offset with
  | nil => simp [lineStarts] at member
  | cons char tail ih =>
    have positive := char.utf8Size_pos
    rw [byteLen_cons]
    rcases mem_append.mp member with here | later
    · split at here
      next => simp only [mem_singleton] at here; omega
      next => simp at here
    · have bounds := ih later
      omega

theorem length_lineStarts (offset : Nat) (text : Text) : (lineStarts offset text).length = text.count '\n' := by
  induction text generalizing offset with
  | nil => rfl
  | cons char tail ih =>
    rw [lineStarts, count_cons, length_append, ih]
    by_cases newline : char = '\n' <;> simp [newline, Nat.add_comm]

theorem getLast?_lineStarts (text : Text) :
    ∃ start, (0 :: lineStarts 0 text).getLast? = some start ∧ start + byteLen (text.reverse.takeWhile (· != '\n')) = byteLen text := by
  induction text using reverseRecOn with
  | nil => exact ⟨0, rfl, rfl⟩
  | append_singleton text char ih =>
    obtain ⟨start, last, sum⟩ := ih
    rw [lineStarts_append, ← cons_append, reverse_append, reverse_singleton, singleton_append, takeWhile_cons,
      byteLen_append, byteLen_cons, byteLen_nil]
    by_cases newline : char = '\n'
    · refine ⟨byteLen text + char.utf8Size, ?_, ?_⟩
      · simp only [lineStarts, newline, if_true, append_nil, getLast?_append, getLast?_singleton, Option.some_or, Nat.zero_add]
      · simp [newline]
    · refine ⟨start, ?_, ?_⟩
      · simp [lineStarts, newline, last]
      · simp only [newline, bne_iff_ne, ne_eq, not_false_eq_true, if_true, byteLen_cons]
        omega

/-- The bytes of the text say the same, as long as no offset has to saturate. -/
theorem filterMap_encode {offset : Nat} {text : Text} (short : offset + byteLen text < usizeLimit) : ((encode text).zipIdx offset).filterMap
      (fun (byte, offset) => if byte = 0x0A then some (min (offset + 1) (usizeLimit - 1)) else none) = lineStarts offset text := by
  induction text generalizing offset with
  | nil => rfl
  | cons char tail ih =>
    rw [byteLen_cons] at short
    rw [encode_cons, zipIdx_append, filterMap_append, String.length_utf8EncodeChar, ih (by omega), lineStarts]
    congr 1
    by_cases newline : char = '\n'
    · subst newline
      have fits : offset + 1 ≤ usizeLimit - 1 := by
        have single : Char.utf8Size '\n' = 1 := by decide
        omega
      have bytes : String.utf8EncodeChar '\n' = [0x0A] := by decide
      simp [bytes, fits, show Char.utf8Size '\n' = 1 by decide]
    · rw [if_neg newline, filterMap_eq_nil_iff]
      intro entry member
      have other : entry.1 ≠ 0x0A := by
        intro same
        have code := toNat_eq_of_mem_utf8EncodeChar (same ▸ fst_mem_of_mem_zipIdx member) (by decide)
        exact newline (Char.toNat_inj.mp code)
      simp only [other, if_false]

/-- Both locators name the same line and column at every position between two characters. -/
theorem point_eq_from_byte_index {text : Text} {byteIndex : Nat} (short : byteLen text < 2 ^ 32 - 1)
    (boundary : isCharBoundary text byteIndex = true) : (LineIndex.new text).point byteIndex = TextPoint.fromByteIndex text byteIndex := by
  obtain ⟨leading, trailing, rfl, rfl⟩ := eq_append_of_isCharBoundary boundary
  have fits : byteLen (leading ++ trailing) < usizeLimit := Nat.lt_trans short (by decide)
  have shape : (LineIndex.new (leading ++ trailing)).starts = (0 :: lineStarts 0 leading) ++ lineStarts (byteLen leading) trailing := by
    rw [LineIndex.new, filterMap_encode (by simpa using fits), lineStarts_append, cons_append, Nat.zero_add]
  have position : partitionPoint (fun start => decide (start ≤ byteLen leading)) (LineIndex.new (leading ++ trailing)).starts =
      leading.count '\n' + 1 := by
    rw [shape, partitionPoint_append, length_cons, length_lineStarts]
    · intro start member
      rcases mem_cons.mp member with rfl | inside
      · simp
      · have bounds := mem_lineStarts inside
        exact decide_eq_true (by omega)
    · intro start member
      have bounds := mem_lineStarts member
      exact decide_eq_false (by omega)
  obtain ⟨start, last, sum⟩ := getLast?_lineStarts leading
  have found : (LineIndex.new (leading ++ trailing)).starts[leading.count '\n']? = some start := by
    rw [shape, getElem?_append_left (by simp [length_lineStarts]), ← last, getLast?_eq_getElem?, length_cons,
      length_lineStarts, Nat.add_sub_cancel]
  have column : byteLen leading - start = byteLen (leading.reverse.takeWhile (· != '\n')) := by omega
  have before : start ≤ byteLen leading := by omega
  simp only [LineIndex.point, position, Nat.le_add_left, if_true, Nat.add_sub_cancel, found, before, column, TextPoint.fromByteIndex, boundary,
    takeBytes_append, LineIndex.oneBased, Option.bind_eq_bind, Option.bind_some]
  by_cases lines : leading.count '\n' + 1 < u32Limit <;>
    by_cases columns : byteLen (leading.reverse.takeWhile (· != '\n')) + 1 < u32Limit <;> simp [lines, columns]

theorem point_eq_from_byte_index_second_line : (LineIndex.new ['a', '\n', 'b']).point 2 = TextPoint.fromByteIndex ['a', '\n', 'b'] 2 ∧
      TextPoint.fromByteIndex ['a', '\n', 'b'] 2 = some ⟨2, 1⟩ :=
  ⟨point_eq_from_byte_index (by decide) (by decide), by decide⟩

end Retonr
