import Retonr.Proofs.Sentinels

/-! Masking and restoring are inverse. Both sides of the round trip are one template:
the raw text fills its holes with protected surfaces and the masked text with
the sentinels issued for them. -/

namespace Retonr
open Text Extract List Retonr.Except Template

/-- What every built plan guarantees about the sentinels it issued. -/
structure ProtectionPlan.Issued (unicode : Unicode) (plan : ProtectionPlan) : Prop where
  bounded : plan.values.length ≤ maxProtectedOccurrences
  distinct : (plan.values.map ProtectedValue.token).Nodup
  sentinels : ∀ value ∈ plan.values, (sentinelPattern unicode).Matches value.token

theorem selectSorted_length {previousStop : Option Nat} {count : Nat} {spans selected : List MatchSpan}
    (chosen : selectSorted previousStop count spans = .ok selected) (room : count ≤ maxProtectedOccurrences) :
    count + selected.length ≤ maxProtectedOccurrences := by
  induction spans generalizing previousStop count selected with
  | nil =>
    cases chosen
    simpa using room
  | cons span spans ih =>
    simp only [selectSorted] at chosen
    split at chosen
    · split at chosen
      · cases chosen
      next free =>
        cases rest : selectSorted (some span.stop) (count + 1) spans with
        | error fault => simp [rest, Except.map] at chosen
        | ok later =>
          simp only [rest, Except.map, Except.ok.injEq] at chosen
          subst chosen
          have bound := ih rest (by omega)
          simp only [length_cons]
          omega
    · exact ih chosen room

theorem selectNonOverlapping_length {spans selected : List MatchSpan} (chosen : selectNonOverlapping spans = .ok selected) :
    selected.length ≤ maxProtectedOccurrences := by
  simpa using selectSorted_length chosen (Nat.zero_le _)

private theorem zipIdx_tokens_distinct (selected : List MatchSpan) (start : Nat) (small : start + selected.length < 10000) :
    ((selected.zipIdx start).map fun entry => sentinelToken entry.1.kind (entry.2 + 1)).Nodup := by
  induction selected generalizing start with
  | nil => simp
  | cons span selected ih =>
    simp only [length_cons] at small
    simp only [zipIdx_cons, map_cons, nodup_cons, mem_map, not_exists, not_and]
    refine ⟨?_, ih (start + 1) (by omega)⟩
    rintro ⟨later, index⟩ member same
    obtain ⟨lower, upper, _⟩ := mem_zipIdx member
    have equal := ordinal_eq_of_sentinelToken_eq (by omega) (by omega) same
    omega

variable {unicode : Unicode} {plan : ProtectionPlan}

theorem build_cases {source : Text} {terms : List Text} (built : ProtectionPlan.build unicode source terms = .ok plan) :
    plan.Issued unicode ∧ Extract.typedCounts unicode source = .ok plan.typedCounts ∧
      plan.maskRawCandidate unicode source = .ok plan.maskedSource := by
  simp only [ProtectionPlan.build] at built
  split at built
  · cases built
  split at built
  · cases built
  split at built
  · cases built
  obtain ⟨spans, _, built⟩ := bind_eq_ok.mp built
  obtain ⟨selected, chosen, built⟩ := bind_eq_ok.mp built
  obtain ⟨counts, counted, built⟩ := bind_eq_ok.mp built
  split at built
  · cases built
  split at built
  next remasked masked =>
    split at built
    next same =>
      cases built
      have length := selectNonOverlapping_length chosen
      have room : selected.length < 10000 := Nat.lt_of_le_of_lt length (by decide)
      refine ⟨⟨?_, ?_, ?_⟩, counted, by rw [masked, same]⟩
      · simpa [ProtectionPlan.issueValues] using length
      · simpa [ProtectionPlan.issueValues, Function.comp_def] using zipIdx_tokens_distinct selected 0 (by omega)
      · intro value member
        obtain ⟨⟨span, index⟩, inside, rfl⟩ := mem_map.mp member
        obtain ⟨_, upper, _⟩ := mem_zipIdx inside
        exact matches_sentinelToken unicode span.kind (by omega)
    · cases built
  · cases built
  · cases built

namespace ProtectionPlan

/-- A value of the plan pairs this surface with this token. -/
def Carries (plan : ProtectionPlan) (surface token : Text) : Prop :=
  ∃ value ∈ plan.values, value.surface = surface ∧ value.token = token

variable {token : Text}

theorem mem_tokensFor {plan : ProtectionPlan} {surface : Text} : token ∈ plan.tokensFor surface ↔ plan.Carries surface token := by
  simp only [tokensFor, mem_map, mem_filter, beq_iff_eq, Carries, and_assoc]

variable {unicode : Unicode} {plan : ProtectionPlan}

theorem Issued.tokensFor_nodup (issued : plan.Issued unicode) (surface : Text) : (plan.tokensFor surface).Nodup :=
  issued.distinct.sublist (filter_sublist.map ProtectedValue.token)

theorem Issued.value_unique (issued : plan.Issued unicode) {value other : ProtectedValue} (member : value ∈ plan.values)
    (also : other ∈ plan.values) (same : value.token = other.token) : value = other :=
  inj_on_of_nodup_map issued.distinct member also same

theorem Issued.surface_unique (issued : plan.Issued unicode) {surface other : Text}
    (carried : plan.Carries surface token) (also : plan.Carries other token) : surface = other := by
  obtain ⟨value, member, rfl, rfl⟩ := carried
  obtain ⟨second, inside, rfl, same⟩ := also
  rw [issued.value_unique member inside same.symm]

/-- The tokens assigned to matched surfaces, given how many of each were assigned before. -/
structure Assigned (plan : ProtectionPlan) (matched : CountMap Text) (hits : List Hit) (final : CountMap Text)
    (tokens : List Text) : Prop where
  length : tokens.length = hits.length
  carried : List.Forall₂ (fun hit token => plan.Carries hit.surface token) hits tokens
  counted : ∀ surface, final.count surface = matched.count surface + Multiset.count surface (hits.map Hit.surface)
  distinct : tokens.Nodup
  fresh : ∀ token ∈ tokens, ∃ surface, token ∈ (plan.tokensFor surface).drop (matched.count surface)

variable {tokens : List Text}

private theorem not_mem_drop_succ (distinct : tokens.Nodup) {index : Nat}
    (found : tokens[index]? = some token) : token ∉ tokens.drop (index + 1) := by
  obtain ⟨inside, rfl⟩ := List.getElem?_eq_some_iff.mp found
  have split := drop_eq_getElem_cons inside
  have suffix : (tokens.drop index).Nodup := distinct.sublist (drop_sublist _ _)
  rw [split] at suffix
  exact (nodup_cons.mp suffix).1

private theorem mem_drop_of_mem_drop_succ {index : Nat} (member : token ∈ tokens.drop (index + 1)) : token ∈ tokens.drop index := by
  rw [Nat.add_comm, ← drop_drop] at member
  exact mem_of_mem_drop (i := 1) (by simpa [drop_drop, Nat.add_comm] using member)

theorem Issued.assignTokens (issued : plan.Issued unicode) {typedSpans : List MatchSpan} {hits : List Hit}
    {matched final : CountMap Text} {replacements : List (Nat × Nat × Text)}
    (assigned : plan.assignTokens typedSpans matched hits = .ok (replacements, final)) :
    ∃ tokens, replacements = edits hits tokens ∧ plan.Assigned matched hits final tokens := by
  induction hits generalizing matched final replacements with
  | nil =>
    cases assigned
    exact ⟨[], rfl, rfl, .nil, by simp, .nil, by simp⟩
  | cons hit hits ih =>
    simp only [ProtectionPlan.assignTokens] at assigned
    split at assigned
    · cases assigned
    next token found =>
      split at assigned
      · cases assigned
      next value _ =>
        split at assigned
        · cases assigned
        obtain ⟨⟨later, last⟩, inner, assigned⟩ := bind_eq_ok.mp assigned
        cases assigned
        obtain ⟨tokens, rfl, rest⟩ := ih inner
        have carried : plan.Carries hit.surface token := mem_tokensFor.mp (mem_of_getElem? found)
        refine ⟨token :: tokens, rfl, ⟨by simp [rest.length], .cons carried rest.carried, ?_, ?_, ?_⟩⟩
        · intro surface
          rw [rest.counted, CountMap.count_increment, map_cons, ← Multiset.cons_coe, Multiset.count_cons]
          omega
        · refine nodup_cons.mpr ⟨?_, rest.distinct⟩
          intro again
          obtain ⟨surface, remaining⟩ := rest.fresh token again
          obtain rfl := issued.surface_unique carried (mem_tokensFor.mp (mem_of_mem_drop remaining))
          rw [CountMap.count_increment, if_pos rfl] at remaining
          exact not_mem_drop_succ (issued.tokensFor_nodup hit.surface) found remaining
        · intro other member
          rcases mem_cons.mp member with rfl | member
          · refine ⟨hit.surface, ?_⟩
            obtain ⟨inside, shape⟩ := List.getElem?_eq_some_iff.mp found
            rw [drop_eq_getElem_cons inside, shape]
            exact mem_cons_self
          · obtain ⟨surface, remaining⟩ := rest.fresh other member
            refine ⟨surface, ?_⟩
            rw [CountMap.count_increment] at remaining
            split at remaining
            · exact mem_drop_of_mem_drop_succ remaining
            · exact remaining

private theorem exists_of_forall₂ {α β : Type} {related : α → β → Prop} {left : List α} {right : List β}
    (pairs : List.Forall₂ related left right) {item : α} (member : item ∈ left) : ∃ other, related item other := by
  induction pairs with
  | nil => simp at member
  | cons first _ ih =>
    rcases mem_cons.mp member with rfl | member
    · exact ⟨_, first⟩
    · exact ih member

theorem length_tokensFor (plan : ProtectionPlan) (surface : Text) :
    (plan.tokensFor surface).length = Multiset.count surface (plan.values.map ProtectedValue.surface) := by
  simp only [tokensFor, length_map]
  induction plan.values with
  | nil => rfl
  | cons value values ih =>
    rw [map_cons, ← Multiset.cons_coe, Multiset.count_cons, ← ih]
    by_cases same : value.surface = surface
    · simp [same]
    · simp [same, Ne.symm same]

/-- Once every surface has been matched as often as it was issued, every token is assigned exactly once. -/
theorem Assigned.tokens_perm {hits : List Hit} {final : CountMap Text} (assigned : plan.Assigned [] hits final tokens)
    (complete : ∀ surface ∈ plan.patterns, (plan.tokensFor surface).length = final.count surface) :
    tokens.Perm (plan.values.map ProtectedValue.token) := by
  have surfaces : (hits.map Hit.surface : Multiset Text) = (plan.values.map ProtectedValue.surface : Multiset Text) := by
    refine Multiset.ext.mpr fun surface => ?_
    by_cases issuedHere : surface ∈ plan.values.map ProtectedValue.surface
    · have total := complete surface (mem_dedup.mpr issuedHere)
      rw [assigned.counted, CountMap.count_nil, Nat.zero_add, length_tokensFor] at total
      exact total.symm
    · have missing : surface ∉ hits.map Hit.surface := by
        intro member
        obtain ⟨hit, inside, rfl⟩ := mem_map.mp member
        obtain ⟨token, value, stored, same, _⟩ := exists_of_forall₂ assigned.carried inside
        exact issuedHere (mem_map.mpr ⟨value, stored, same⟩)
      rw [Multiset.count_eq_zero_of_notMem (by simpa using missing),
        Multiset.count_eq_zero_of_notMem (by simpa using issuedHere)]
  have length : tokens.length = (plan.values.map ProtectedValue.token).length := by
    have sizes := (Multiset.coe_eq_coe.mp surfaces).length_eq
    simp only [length_map] at sizes ⊢
    rw [assigned.length, sizes]
  refine (assigned.distinct.subperm ?_).perm_of_length_le length.ge
  intro token member
  obtain ⟨surface, remaining⟩ := assigned.fresh token member
  obtain ⟨value, stored, _, same⟩ := mem_tokensFor.mp (mem_of_mem_drop remaining)
  exact mem_map.mpr ⟨value, stored, same⟩

/-- The value index found for every sentinel of a masked text. -/
def Indexed (plan : ProtectionPlan) (token : Text) (index : Nat) : Prop :=
  ∃ value, plan.values[index]? = some value ∧ value.token = token

theorem indexSentinels_eq (hits : List Hit) (seen : List Nat)
    (known : ∀ hit ∈ hits, hit.surface ∈ plan.values.map ProtectedValue.token) (once : (hits.map Hit.surface).Nodup)
    (unused : ∀ hit ∈ hits, ∀ index ∈ seen, ¬plan.Indexed hit.surface index) : ∃ indices, plan.indexSentinels seen hits =
        .ok (List.zipWith (fun hit index => (hit.start, hit.stop, index)) hits indices, indices.reverse ++ seen) ∧
      List.Forall₂ plan.Indexed (hits.map Hit.surface) indices := by
  induction hits generalizing seen with
  | nil => exact ⟨[], rfl, .nil⟩
  | cons hit hits ih =>
    simp only [map_cons, nodup_cons] at once
    simp only [indexSentinels]
    cases found : plan.values.findIdx? (·.token == hit.surface) with
    | none =>
      obtain ⟨value, stored, same⟩ := mem_map.mp (known hit mem_cons_self)
      exact absurd (List.findIdx?_eq_none_iff.mp found value stored) (by simp [same])
    | some index =>
      obtain ⟨inside, same, _⟩ := List.findIdx?_eq_some_iff_getElem.mp found
      have here : plan.Indexed hit.surface index :=
        ⟨plan.values[index], List.getElem?_eq_getElem inside, by simpa using same⟩
      have fresh : index ∉ seen := fun member => unused hit mem_cons_self index member here
      have laterUnused : ∀ other ∈ hits, ∀ used ∈ index :: seen, ¬plan.Indexed other.surface used := by
        intro other member used inSeen clash
        rcases mem_cons.mp inSeen with rfl | inSeen
        · obtain ⟨value, stored, token⟩ := here
          obtain ⟨second, storedAgain, tokenAgain⟩ := clash
          obtain rfl : value = second := Option.some.inj (stored.symm.trans storedAgain)
          exact once.1 (mem_map.mpr ⟨other, member, tokenAgain.symm.trans token⟩)
        · exact unused other (mem_cons_of_mem _ member) used inSeen clash
      obtain ⟨indices, run, pairs⟩ := ih (index :: seen) (fun other member => known other (mem_cons_of_mem _ member)) once.2 laterUnused
      refine ⟨index :: indices, ?_, .cons here pairs⟩
      simp [fresh, run, bind, Except.bind]

theorem Issued.indexed_covers (issued : plan.Issued unicode) {indices : List Nat}
    (all : tokens.Perm (plan.values.map ProtectedValue.token)) (pairs : List.Forall₂ plan.Indexed tokens indices) :
    ∀ index < plan.values.length, index ∈ indices := by
  intro index inside
  have member : (plan.values[index]).token ∈ tokens := all.mem_iff.mpr (mem_map_of_mem (getElem_mem inside))
  obtain ⟨place, bound, shape⟩ := getElem_of_mem member
  obtain ⟨length, related⟩ := forall₂_iff_get.mp pairs
  obtain ⟨value, stored, token⟩ := related place bound (length ▸ bound)
  obtain ⟨other, rfl⟩ := List.getElem?_eq_some_iff.mp stored
  have sameToken : (plan.values.map ProtectedValue.token)[indices.get ⟨place, length ▸ bound⟩]? =
      (plan.values.map ProtectedValue.token)[index]? := by
    simp only [List.getElem?_map, List.getElem?_eq_getElem other, List.getElem?_eq_getElem inside, Option.map_some, token]
    rw [← shape]
    rfl
  have same := (List.getElem?_inj (by simpa using other) issued.distinct).mp sameToken
  exact same ▸ get_mem _ _

theorem Issued.indexed_surfaces (issued : plan.Issued unicode) {surfaces : List Text} {indices : List Nat}
    (carried : List.Forall₂ plan.Carries surfaces tokens) (pairs : List.Forall₂ plan.Indexed tokens indices) :
    indices.map (fun index => (plan.values[index]?.map ProtectedValue.surface).getD []) = surfaces := by
  induction carried generalizing indices with
  | nil =>
    cases pairs
    rfl
  | cons first _ ih =>
    cases pairs with
    | cons here rest =>
      obtain ⟨value, member, rfl, same⟩ := first
      obtain ⟨stored, found, token⟩ := here
      obtain rfl := issued.value_unique (mem_of_getElem? found) member (token.trans same.symm)
      rw [map_cons, ih rest, found]
      rfl

end ProtectionPlan

private theorem hit_width (hit : Hit) : hit.stop - hit.start = byteLen hit.surface := by
  simp [Hit.stop]

variable {substitutes : List Text}

theorem editedLength_total {hits : List Hit} {length final : Nat} (same : substitutes.length = hits.length)
    (edited : editedLength length (edits hits substitutes) = some final) :
    final + ((hits.map Hit.surface).map byteLen).sum = length + (substitutes.map byteLen).sum := by
  induction hits generalizing substitutes length with
  | nil =>
    obtain rfl := eq_nil_of_length_eq_zero same
    simpa [editedLength, edits, eq_comm] using edited
  | cons hit hits ih =>
    obtain ⟨substitute, substitutes, rfl⟩ := exists_cons_of_length_pos (l := substitutes) (by simp [same])
    simp only [editedLength, edits, zipWith_cons_cons, foldlM_cons, hit_width] at edited
    split at edited
    · cases edited
    next covered =>
      split at edited
      · cases edited
      · have later := ih (by simpa using same) edited
        simp only [map_cons, sum_cons]
        omega

theorem editedLength_isSome {hits : List Hit} (length : Nat)
    (same : substitutes.length = hits.length) (covered : ((hits.map Hit.surface).map byteLen).sum ≤ length)
    (fits : length + (substitutes.map byteLen).sum < usizeLimit) : (editedLength length (edits hits substitutes)).isSome = true := by
  induction hits generalizing substitutes length with
  | nil => simp [editedLength, edits]
  | cons hit hits ih =>
    obtain ⟨substitute, substitutes, rfl⟩ := exists_cons_of_length_pos (l := substitutes) (by simp [same])
    simp only [map_cons, sum_cons] at covered fits
    simp only [editedLength, edits, zipWith_cons_cons, foldlM_cons, hit_width]
    rw [if_neg (by omega), if_neg (by omega)]
    exact ih _ (by simpa using same) (by omega) (by omega)

theorem applyEdits_cases {text result : Text} {edits : List (Nat × Nat × Text)} (applied : applyEdits text edits = .ok result) :
    result = Scan.splice text 0 edits ∧ ∃ length, editedLength (byteLen text) edits = some length ∧ length ≤ maxProtectedTextBytes := by
  simp only [applyEdits] at applied
  split at applied
  · cases applied
  next length kept =>
    cases applied
    obtain ⟨edited, bound⟩ := Option.filter_eq_some_iff.mp kept
    exact ⟨rfl, length, edited, by simpa using bound⟩

variable {template : Template}

/-- Replacing every filler of a filled template gives the template filled with the substitutes. -/
theorem applyEdits_fill {fillers : List Text} (holes : fillers.length = template.gaps.length)
    (others : substitutes.length = template.gaps.length) (filled : byteLen (template.fill fillers) ≤ maxProtectedTextBytes)
    (refilled : byteLen (template.fill substitutes) ≤ maxProtectedTextBytes) :
    applyEdits (template.fill fillers) (edits (template.place fillers) substitutes) = .ok (template.fill substitutes) := by
  have surfaces : (template.place fillers).map Hit.surface = fillers := placeFrom_surfaces 0 _ _ holes
  have placed : substitutes.length = (template.place fillers).length := by
    rw [others, ← holes, ← congrArg List.length surfaces, length_map]
  have before := byteLen_fill template fillers holes
  have after := byteLen_fill template substitutes others
  have fits : byteLen (template.fill fillers) + (substitutes.map byteLen).sum < usizeLimit := by
    simp only [usizeLimit, maxProtectedTextBytes] at *
    omega
  have covered : (((template.place fillers).map Hit.surface).map byteLen).sum ≤ byteLen (template.fill fillers) := by
    rw [surfaces]
    omega
  obtain ⟨length, edited⟩ := Option.isSome_iff_exists.mp (editedLength_isSome _ placed covered fits)
  have same : length = byteLen (template.fill substitutes) := by
    have total := editedLength_total placed edited
    rw [surfaces] at total
    omega
  simp only [applyEdits, edited, same, Option.filter, refilled, decide_true, if_true]
  exact congrArg Except.ok (template.splice_fill fillers substitutes holes others)

/-- A template filled with surfaces on the raw side and with their tokens on the masked side. -/
structure ProtectionPlan.Corresponds (plan : ProtectionPlan) (raw masked : Text) (template : Template)
    (surfaces tokens : List Text) : Prop where
  surfaceHoles : surfaces.length = template.gaps.length
  tokenHoles : tokens.length = template.gaps.length
  rawShape : raw = template.fill surfaces
  maskedShape : masked = template.fill tokens
  all : tokens.Perm (plan.values.map ProtectedValue.token)
  carried : List.Forall₂ plan.Carries surfaces tokens

variable {candidate masked : Text}

theorem maskRawCandidate_cases (done : plan.maskRawCandidate unicode candidate = .ok masked) :
    byteLen candidate ≤ maxProtectedTextBytes ∧ Scan.isMatch (sentinelMatcher unicode) candidate = false ∧
      Extract.typedCounts unicode candidate = .ok plan.typedCounts ∧ (plan.values = [] ∧ masked = candidate ∨ ∃ typedSpans replacements matched,
        plan.assignTokens typedSpans [] (Scan.scan (Matcher.longestOf plan.patterns) candidate) = .ok (replacements, matched) ∧
        (∀ surface ∈ plan.patterns, (plan.tokensFor surface).length = matched.count surface) ∧
        applyEdits candidate replacements = .ok masked) := by
  simp only [ProtectionPlan.maskRawCandidate] at done
  split at done
  · cases done
  next small =>
    split at done
    · cases done
    next clean =>
      obtain ⟨typedSpans, spans, done⟩ := bind_eq_ok.mp done
      split at done
      · cases done
      next recounted =>
        have counts : Extract.typedCounts unicode candidate = .ok plan.typedCounts := by
          simp only [Extract.typedCounts, spans, Except.map, not_not.mp recounted]
        refine ⟨Nat.le_of_not_lt fun large => small (Or.inl large), by simpa using clean, counts, ?_⟩
        split at done
        next empty =>
          cases done
          exact Or.inl ⟨empty, rfl⟩
        · obtain ⟨⟨replacements, matched⟩, assigned, done⟩ := bind_eq_ok.mp done
          split at done
          · cases done
          next complete =>
            refine Or.inr ⟨typedSpans, replacements, matched, assigned, ?_, done⟩
            simpa using complete

theorem ProtectionPlan.Issued.corresponds (issued : plan.Issued unicode) (done : plan.maskRawCandidate unicode candidate = .ok masked) :
    byteLen masked ≤ maxProtectedTextBytes ∧ ∃ template surfaces tokens, plan.Corresponds candidate masked template surfaces tokens := by
  obtain ⟨small, _, _, ⟨empty, rfl⟩ | ⟨typedSpans, replacements, matched, run, complete, applied⟩⟩ :=
    maskRawCandidate_cases done
  · exact ⟨small, ⟨[], masked⟩, [], [], rfl, rfl, rfl, rfl, by simp [empty], .nil⟩
  obtain ⟨template, surfaces, holes, shape, hits, _⟩ := scan_tiles (Matcher.longestOf plan.patterns) candidate
  obtain ⟨tokens, rfl, assigned⟩ := issued.assignTokens run
  have surfacesBack : (template.place surfaces).map Hit.surface = surfaces := placeFrom_surfaces 0 _ _ holes
  rw [hits] at assigned applied
  have tokenHoles : tokens.length = template.gaps.length := by
    rw [assigned.length, ← holes, ← congrArg List.length surfacesBack, length_map]
  obtain ⟨result, length, edited, bound⟩ := applyEdits_cases applied
  have maskedShape : masked = template.fill tokens := by
    rw [result, shape]
    exact template.splice_fill surfaces tokens holes tokenHoles
  refine ⟨?_, template, surfaces, tokens, holes, tokenHoles, shape, maskedShape, assigned.tokens_perm complete, ?_⟩
  · have total := editedLength_total assigned.length edited
    rw [surfacesBack, shape, byteLen_fill template surfaces holes] at total
    rw [maskedShape, byteLen_fill template tokens tokenHoles]
    omega
  · have carried := assigned.carried
    rw [← surfacesBack]
    exact forall₂_map_left_iff.mpr carried

variable {raw : Text} {surfaces tokens : List Text}

/-- The sentinels found in the masked side are exactly the fillers of its template. -/
theorem ProtectionPlan.Issued.scan_masked (issued : plan.Issued unicode) (pair : plan.Corresponds raw masked template surfaces tokens)
    (clean : Scan.isMatch (sentinelMatcher unicode) raw = false) : Scan.scan (sentinelMatcher unicode) masked = template.place tokens := by
  have needs := sentinelPattern_needs unicode
  have words : ∀ token ∈ tokens, (sentinelPattern unicode).Matches token := by
    intro token member
    obtain ⟨value, stored, rfl⟩ := mem_map.mp (pair.all.mem_iff.mp member)
    exact issued.sentinels value stored
  rw [pair.maskedShape]
  apply scan_fill _ template tokens pair.tokenHoles
  · intro token member before rest
    exact Matcher.ofRegex_next_word needs (sentinelPattern_prefixFree unicode) (words token member) before rest
  · intro gap member first char last before rest shape stop
    rcases Matcher.ofRegex_next needs before (char :: last ++ rest) with ⟨_, missed⟩ | ⟨word, more, _, leads, matched⟩
    · exact missed
    exfalso
    have opens : rest = [] ∨ sentinelOpening <+: rest := by
      refine stop.imp_right ?_
      rintro ⟨token, inTokens, start⟩
      obtain ⟨body, rfl, _⟩ := sentinel_shape unicode (words token inTokens)
      rw [append_assoc] at start
      exact (prefix_append _ _).trans start
    obtain ⟨after, within⟩ := sentinel_inside_gap unicode matched (by simp) ⟨more, leads.symm⟩ opens
    obtain ⟨left, right, whole⟩ := template.infix_fill surfaces pair.surfaceHoles member
    rw [shape, ← within] at whole
    exact Scan.not_matches_of_not_isMatch needs clean
      (show raw = (left ++ first) ++ word ++ (after ++ right) by rw [pair.rawShape, ← whole]; simp) matched

/-- In a masked text that corresponds to a clean raw text, every token is found at its place, and
the values it is indexed by have the surfaces of the raw text. -/
theorem ProtectionPlan.Issued.indexes (issued : plan.Issued unicode) (pair : plan.Corresponds raw masked template surfaces tokens)
    (clean : Scan.isMatch (sentinelMatcher unicode) raw = false) (maskedSmall : byteLen masked ≤ maxProtectedTextBytes) :
    ∃ indices, plan.indexedSentinelMatches unicode masked =
        .ok (List.zipWith (fun hit index => (hit.start, hit.stop, index)) (template.place tokens) indices) ∧
      indices.map (fun index => (plan.values[index]?.map ProtectedValue.surface).getD []) = surfaces := by
  have found := issued.scan_masked pair clean
  have tokensBack : (template.place tokens).map Hit.surface = tokens := placeFrom_surfaces 0 _ _ pair.tokenHoles
  obtain ⟨indices, run, pairs⟩ := plan.indexSentinels_eq (template.place tokens) []
    (by
      intro hit member
      exact pair.all.mem_iff.mp (tokensBack ▸ mem_map_of_mem member))
    (by rw [tokensBack]; exact pair.all.nodup_iff.mpr issued.distinct) (by simp)
  rw [tokensBack] at pairs
  refine ⟨indices, ?_, issued.indexed_surfaces pair.carried pairs⟩
  have covered : (List.range plan.values.length).any (· ∉ indices.reverse ++ []) = false := by
    simpa using issued.indexed_covers pair.all pairs
  simp only [ProtectionPlan.indexedSentinelMatches, found, run, ok_bind, covered]
  rw [if_neg (by simp [maskedSmall, issued.bounded]), if_neg (by simp [issued.distinct])]
  rfl

/-- A masked text that corresponds to a clean raw text passes validation and restores to it. -/
theorem ProtectionPlan.Issued.restores (issued : plan.Issued unicode) (pair : plan.Corresponds raw masked template surfaces tokens)
    (clean : Scan.isMatch (sentinelMatcher unicode) raw = false) (rawSmall : byteLen raw ≤ maxProtectedTextBytes)
    (maskedSmall : byteLen masked ≤ maxProtectedTextBytes) :
    plan.validateMasked unicode masked = .ok () ∧ plan.restore unicode masked = .ok raw := by
  obtain ⟨indices, indexed, surfacesFound⟩ := issued.indexes pair clean maskedSmall
  refine ⟨by rw [ProtectionPlan.validateMasked, indexed]; rfl, ?_⟩
  have edits : (List.zipWith (fun (hit : Hit) (index : Nat) => (hit.start, hit.stop, index)) (template.place tokens) indices).map
      (fun entry => (entry.1, entry.2.1, (plan.values[entry.2.2]?.map ProtectedValue.surface).getD [])) =
      edits (template.place tokens) surfaces := by
    rw [← surfacesFound, edits, zipWith_map_right, map_zipWith]
  rw [ProtectionPlan.restore, indexed, ok_bind, edits, pair.maskedShape, pair.rawShape]
  exact applyEdits_fill pair.tokenHoles pair.surfaceHoles (pair.maskedShape ▸ maskedSmall) (pair.rawShape ▸ rawSmall)

/-- Whatever a plan masks, it validates and restores exactly. -/
theorem ProtectionPlan.Issued.mask_restore (issued : plan.Issued unicode) (done : plan.maskRawCandidate unicode candidate = .ok masked) :
    plan.validateMasked unicode masked = .ok () ∧ plan.restore unicode masked = .ok candidate := by
  obtain ⟨maskedSmall, template, surfaces, tokens, pair⟩ := issued.corresponds done
  obtain ⟨small, clean, _⟩ := maskRawCandidate_cases done
  exact issued.restores pair clean small maskedSmall

/-- Masking and restoring are inverse for every plan that can be built. -/
theorem masking_and_restoring_are_inverse (unicode : Unicode) (source : Text) (declaredTerms : List Text) (plan : ProtectionPlan)
    (built : ProtectionPlan.build unicode source declaredTerms = .ok plan) : plan.restore unicode plan.maskedSource = .ok source ∧
      ∀ candidate masked, plan.maskRawCandidate unicode candidate = .ok masked →
        plan.validateMasked unicode masked = .ok () ∧ plan.restore unicode masked = .ok candidate := by
  obtain ⟨issued, _, remasked⟩ := build_cases built
  refine ⟨(issued.mask_restore remasked).2, ?_⟩
  intro candidate masked done
  exact issued.mask_restore done

theorem masking_and_restoring_are_inverse_number : ∃ plan, ProtectionPlan.build Unicode.ascii "Pay 5".toList [] = .ok plan ∧
      plan.restore Unicode.ascii "Pay: \x7b\x7bPROTECTED_NUMBER_0001\x7d\x7d".toList = .ok "Pay: 5".toList := by
  have computed : ((ProtectionPlan.build Unicode.ascii "Pay 5".toList []).bind fun plan =>
      plan.maskRawCandidate Unicode.ascii "Pay: 5".toList).toOption =
        some "Pay: \x7b\x7bPROTECTED_NUMBER_0001\x7d\x7d".toList := rfl
  cases built : ProtectionPlan.build Unicode.ascii "Pay 5".toList [] with
  | error fault => simp only [built, Except.bind, Except.toOption, reduceCtorEq] at computed
  | ok plan =>
    cases done : plan.maskRawCandidate Unicode.ascii "Pay: 5".toList with
    | error fault => simp only [built, done, Except.bind, Except.toOption, reduceCtorEq] at computed
    | ok masked =>
      simp only [built, done, Except.bind, Except.toOption, Option.some.injEq] at computed
      rw [computed] at done
      exact ⟨plan, rfl, ((masking_and_restoring_are_inverse _ _ _ plan built).2 _ _ done).2⟩

end Retonr
