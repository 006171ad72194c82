import Retonr.Engine.Protection

/-! Collecting and selecting spans. The bounded buffer only matters through its bound, and
the sort is total, so neither the order of collection nor that of the declared terms shows. -/

namespace Retonr
open Text List

namespace Extract

def asSpans (kind : ProtectedKind) (hits : List Hit) : List MatchSpan := hits.map fun hit => ⟨hit.start, hit.stop, kind⟩

/-- What a collection leaves in the buffer: everything in order, or the refusal of a full one. -/
def limited (spans : List MatchSpan) : Except ProtectionError (List MatchSpan) :=
  if spans.length ≤ maxProtectionMatchSpans then .ok spans else .error .resourceLimit

/-- The collecting step appends exactly these spans to a buffer within its bound. -/
def Appends (collect : List MatchSpan → Except ProtectionError (List MatchSpan)) (found : List MatchSpan) : Prop :=
  ∀ spans, spans.length ≤ maxProtectionMatchSpans → collect spans = limited (spans ++ found)

theorem limited_over {spans : List MatchSpan} (more : List MatchSpan) (beyond : ¬spans.length ≤ maxProtectionMatchSpans) :
    limited (spans ++ more) = .error .resourceLimit := by
  have longer : ¬(spans ++ more).length ≤ maxProtectionMatchSpans := by
    simp only [length_append]
    omega
  simp only [limited, longer, if_false]

theorem Appends.bind {first second : List MatchSpan → Except ProtectionError (List MatchSpan)} {found more : List MatchSpan}
    (start : Appends first found) (next : Appends second more) : Appends (fun spans => first spans >>= second) (found ++ more) := by
  intro spans room
  show first spans >>= second = _
  rw [← append_assoc, start spans room]
  by_cases fits : (spans ++ found).length ≤ maxProtectionMatchSpans
  · simp only [limited, fits, if_true, Except.ok_bind]
    exact next _ fits
  · rw [limited_over more fits, show limited (spans ++ found) = .error .resourceLimit by simp only [limited, fits, if_false]]
    rfl

theorem appends_addMatchSpan (span : MatchSpan) : Appends (addMatchSpan · span) [span] := by
  intro spans room
  simp only [addMatchSpan, limited, length_append, length_singleton]
  by_cases full : spans.length = maxProtectionMatchSpans
  · rw [if_pos full, if_neg (by omega)]
  · rw [if_neg full, if_pos (by omega)]

theorem appends_foldlM {α : Type} {collect : List MatchSpan → α → Except ProtectionError (List MatchSpan)} {found : α → List MatchSpan}
    (each : ∀ item, Appends (collect · item) (found item)) (items : List α) :
    Appends (fun spans => items.foldlM collect spans) (items.flatMap found) := by
  induction items with
  | nil =>
    intro spans room
    simp [limited, room, pure, Except.pure]
  | cons item items ih =>
    simp only [foldlM_cons, flatMap_cons]
    exact (each item).bind ih

theorem appends_addMatches (hits : List Hit) (kind : ProtectedKind) : Appends (addMatches · hits kind) (asSpans kind hits) := by
  have folded := appends_foldlM (fun hit : Hit => appends_addMatchSpan ⟨hit.start, hit.stop, kind⟩) hits
  rwa [← map_eq_flatMap] at folded

section Collected

variable (unicode : Unicode) (source : Text)

def urlHits : List Hit := (Scan.scan (Matcher.ofRegex urlPattern) source).filterMap trimmedUrl

def emailHits : List Hit := Scan.scan (Matcher.ofRegex emailPattern) source

def numberHits : List Hit := Scan.scan (Matcher.ofRest (numberRest unicode)) source

def comparisonHits : List Hit := Scan.scan (Matcher.firstOf comparisonOperators) source

/-- Every typed literal found, before overlaps are resolved. -/
def typedSpans : List MatchSpan :=
  asSpans .url (urlHits source) ++ (asSpans .email (emailHits source) ++ (asSpans .number (numberHits unicode source) ++
    asSpans .number (comparisonHits source)))

def declaredSpans (declaredTerms : List Text) : List MatchSpan :=
  (declaredTerms.filter (!·.isEmpty)).flatMap fun term => asSpans .declaredTerm (Scan.scan (Matcher.ofLiteral term) source)

theorem appends_addTypedSpans : Appends (addTypedSpans unicode · source) (typedSpans unicode source) :=
  (appends_addMatches (urlHits source) .url).bind <| (appends_addMatches (emailHits source) .email).bind <|
    (appends_addMatches (numberHits unicode source) .number).bind <| appends_addMatches (comparisonHits source) .number

theorem collectSourceSpans_eq (declaredTerms : List Text) :
    collectSourceSpans unicode source declaredTerms = limited (declaredSpans source declaredTerms ++ typedSpans unicode source) := by
  have declared := appends_foldlM (fun term => appends_addMatches (Scan.scan (Matcher.ofLiteral term) source) .declaredTerm)
    (declaredTerms.filter (!·.isEmpty))
  exact declared.bind (appends_addTypedSpans unicode source) [] (Nat.zero_le _)

theorem addTypedSpans_nil : addTypedSpans unicode [] source = limited (typedSpans unicode source) :=
  appends_addTypedSpans unicode source [] (Nat.zero_le _)

end Collected

theorem spanLe_total (left right : MatchSpan) : spanLe left right ∨ spanLe right left := by
  unfold spanLe
  omega

theorem spanLe_trans {first second third : MatchSpan} (left : spanLe first second) (right : spanLe second third) : spanLe first third := by
  unfold spanLe at *
  omega

theorem spanLe_antisymm {left right : MatchSpan} (below : spanLe left right) (above : spanLe right left) : left = right := by
  obtain ⟨start, stop, kind⟩ := left
  obtain ⟨otherStart, otherStop, otherKind⟩ := right
  have ranks : kind.rank = otherKind.rank := by
    unfold spanLe at *
    dsimp only at *
    omega
  have kinds : kind = otherKind := by
    revert ranks
    cases kind <;> cases otherKind <;> decide
  unfold spanLe at *
  simp only [MatchSpan.mk.injEq]
  dsimp only at *
  exact ⟨by omega, by omega, kinds⟩

instance : Std.Total spanLe := ⟨spanLe_total⟩

instance : IsTrans MatchSpan spanLe := ⟨fun _ _ _ => spanLe_trans⟩

instance : Std.Antisymm spanLe := ⟨fun _ _ => spanLe_antisymm⟩

theorem selectNonOverlapping_perm {spans others : List MatchSpan} (same : spans.Perm others) :
    selectNonOverlapping spans = selectNonOverlapping others := by
  have sorted : spans.insertionSort spanLe = others.insertionSort spanLe :=
    List.Perm.eq_of_pairwise' (pairwise_insertionSort _ _) (pairwise_insertionSort _ _)
      ((perm_insertionSort _ _).trans (same.trans (perm_insertionSort _ _).symm))
  rw [selectNonOverlapping, selectNonOverlapping, sorted]

theorem declaredSpans_perm (source : Text) {terms others : List Text} (same : terms.Perm others) :
    (declaredSpans source terms).Perm (declaredSpans source others) :=
  (same.filter _).flatMap_right _

end Extract

theorem protectedTermsAreValid_perm {terms others : List Text} (same : terms.Perm others) :
    protectedTermsAreValid terms = protectedTermsAreValid others := by
  have each : terms.all (fun term => !term.isEmpty && byteLen term ≤ maxProtectedTermBytes && !term.any isDisallowedPolicyCharacter) =
      others.all (fun term => !term.isEmpty && byteLen term ≤ maxProtectedTermBytes && !term.any isDisallowedPolicyCharacter) :=
    same.all_eq
  simp only [protectedTermsAreValid, same.length_eq, each, same.nodup_iff, (same.map byteLen).sum_nat]

/-- The declared terms are a set: their order shows in no plan and in no error. -/
theorem declared_term_order_is_irrelevant (unicode : Unicode) (source : Text) {terms others : List Text} (same : terms.Perm others) :
    ProtectionPlan.build unicode source terms = ProtectionPlan.build unicode source others := by
  have selected : (Extract.collectSourceSpans unicode source terms >>= Extract.selectNonOverlapping) =
      (Extract.collectSourceSpans unicode source others >>= Extract.selectNonOverlapping) := by
    have spans := (Extract.declaredSpans_perm source same).append_right (Extract.typedSpans unicode source)
    rw [Extract.collectSourceSpans_eq, Extract.collectSourceSpans_eq]
    simp only [Extract.limited, spans.length_eq]
    split
    · exact Extract.selectNonOverlapping_perm spans
    · rfl
  simp only [ProtectionPlan.build, protectedTermsAreValid_perm same, ← bind_assoc, selected]

theorem declared_term_order_is_irrelevant_overlapping :
    ProtectionPlan.build Unicode.ascii "beta alphabet".toList ["alpha".toList, "beta".toList, "bet".toList] =
      ProtectionPlan.build Unicode.ascii "beta alphabet".toList ["bet".toList, "alpha".toList, "beta".toList] := by
  have same : ["alpha".toList, "beta".toList, "bet".toList].Perm ["bet".toList, "alpha".toList, "beta".toList] := by decide
  exact declared_term_order_is_irrelevant Unicode.ascii _ same

end Retonr
