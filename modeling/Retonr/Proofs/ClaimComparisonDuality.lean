import Retonr.Proofs.ClaimComparison

/-! Comparing two sets either way round. The loop walks the source claims and flags candidate
claims, but what it refuses and what it counts depend only on how often two claims are related. -/

namespace Retonr.ClaimEvidenceComparator
open List

/-- The same aggregate with the two sides exchanged. -/
def exchanged (counts : ClaimComparisonCounts) : ClaimComparisonCounts where
  sourceClaims := counts.candidateClaims
  candidateClaims := counts.sourceClaims
  alignedClaims := counts.alignedClaims
  missingClaims := counts.novelClaims
  novelClaims := counts.missingClaims
  polarityConflicts := counts.polarityConflicts
  modalityConflicts := counts.modalityConflicts
  relationshipConflicts := counts.relationshipConflicts
  sourceUnknownPolarity := counts.candidateUnknownPolarity
  candidateUnknownPolarity := counts.sourceUnknownPolarity
  sourceUnknownModality := counts.candidateUnknownModality
  candidateUnknownModality := counts.sourceUnknownModality
  sourceBelowConfidence := counts.candidateBelowConfidence
  candidateBelowConfidence := counts.sourceBelowConfidence

/-- Some claim is related to two claims of the other side. -/
def Ambiguous (sources candidates : List ClaimEvidence) : Prop :=
  (∃ source ∈ sources, 2 ≤ candidates.countP (sameRelation source)) ∨
    ∃ candidate ∈ candidates, 2 ≤ sources.countP fun source => sameRelation source candidate

/-- The related pairs that also have this property. -/
def pairCount (holds : ClaimEvidence → ClaimEvidence → Bool) (sources candidates : List ClaimEvidence) : Nat :=
  (sources.map fun source => candidates.countP fun candidate => sameRelation source candidate && holds source candidate).sum

theorem sameRelation_comm (source candidate : ClaimEvidence) : sameRelation source candidate = sameRelation candidate source := by
  simp only [sameRelation, BEq.comm]

theorem polarityChanged_comm (source candidate : ClaimEvidence) : polarityChanged source candidate = polarityChanged candidate source := by
  simp only [polarityChanged, bne_comm (a := source.polarity) (b := candidate.polarity),
    Bool.and_comm (source.polarity != .unknown)]

theorem modalityChanged_comm (source candidate : ClaimEvidence) : modalityChanged source candidate = modalityChanged candidate source := by
  simp only [modalityChanged, bne_comm (a := source.modality) (b := candidate.modality),
    Bool.and_comm (source.modality != .unknown)]

theorem relationshipChanged_comm (source candidate : ClaimEvidence) :
    relationshipChanged source candidate = relationshipChanged candidate source := by
  simp only [relationshipChanged, polarityChanged_comm source, modalityChanged_comm source,
    bne_comm (a := source.conditionCount), bne_comm (a := source.attributed), bne_comm (a := source.claimId)]

theorem Ambiguous.comm {sources candidates : List ClaimEvidence} : Ambiguous sources candidates ↔ Ambiguous candidates sources := by
  have turned (claim : ClaimEvidence) : sameRelation claim = fun other => sameRelation other claim :=
    funext fun other => sameRelation_comm claim other
  have other (claim : ClaimEvidence) : (fun source => sameRelation source claim) = sameRelation claim := (turned claim).symm
  simp only [Ambiguous, other]
  exact or_comm

theorem pairCount_append (holds : ClaimEvidence → ClaimEvidence → Bool) (sources more candidates : List ClaimEvidence) :
    pairCount holds (sources ++ more) candidates = pairCount holds sources candidates + pairCount holds more candidates := by
  simp [pairCount]

theorem sum_indicator (holds : ClaimEvidence → Bool) (claims : List ClaimEvidence) :
    (claims.map fun claim => if holds claim then 1 else 0).sum = claims.countP holds := by
  induction claims with
  | nil => rfl
  | cons claim claims ih =>
    rw [map_cons, sum_cons, ih, countP_cons, Nat.add_comm]

theorem pairCount_comm {holds : ClaimEvidence → ClaimEvidence → Bool} (symmetric : ∀ source candidate, holds source candidate = holds candidate source)
    (sources candidates : List ClaimEvidence) : pairCount holds sources candidates = pairCount holds candidates sources := by
  induction sources with
  | nil => simp [pairCount]
  | cons source sources ih =>
    have split (claim : ClaimEvidence) : (source :: sources).countP (fun other => sameRelation claim other && holds claim other) =
        (sources.countP fun other => sameRelation claim other && holds claim other) +
          if sameRelation source claim && holds source claim then 1 else 0 := by
      rw [countP_cons, sameRelation_comm claim source, symmetric claim source]
    have counted := sum_indicator (fun claim => sameRelation source claim && holds source claim) candidates
    simp only [pairCount, map_cons, sum_cons] at ih ⊢
    simp only [split, sum_map_add, counted, ih]
    exact Nat.add_comm _ _

private theorem index_unique {holds : ClaimEvidence → Bool} {claims : List ClaimEvidence} (once : claims.countP holds ≤ 1)
    {first second : Nat} {claim other : ClaimEvidence} (place : claims[first]? = some claim) (holdsClaim : holds claim = true)
    (otherPlace : claims[second]? = some other) (holdsOther : holds other = true) : first = second := by
  induction claims generalizing first second with
  | nil => simp at place
  | cons head claims ih =>
    have later {index : Nat} {member : ClaimEvidence} (inside : claims[index]? = some member) (truth : holds member = true) :
        0 < claims.countP holds := countP_pos_iff.mpr ⟨member, mem_of_getElem? inside, truth⟩
    rw [countP_cons] at once
    cases first with
    | zero =>
      cases second with
      | zero => rfl
      | succ second =>
        obtain rfl : head = claim := by simpa using place
        have beyond := later otherPlace holdsOther
        simp only [holdsClaim, if_true] at once
        omega
    | succ first =>
      cases second with
      | zero =>
        obtain rfl : head = other := by simpa using otherPlace
        have beyond := later place holdsClaim
        simp only [holdsOther, if_true] at once
        omega
      | succ second =>
        exact congrArg (· + 1) (ih (by omega) place otherPlace)

/-- What the alignment loop has established about the processed source claims. -/
structure Tracked (candidates processed : List ClaimEvidence) (used : List Bool) (counts : ClaimComparisonCounts) : Prop where
  flagged : ∀ index candidate, candidates[index]? = some candidate →
    used.getD index false = processed.any fun source => sameRelation source candidate
  single : ∀ candidate ∈ candidates, processed.countP (fun source => sameRelation source candidate) ≤ 1
  unique : ∀ source ∈ processed, candidates.countP (sameRelation source) ≤ 1
  aligned : counts.alignedClaims = pairCount (fun _ _ => true) processed candidates
  polarity : counts.polarityConflicts = pairCount polarityChanged processed candidates
  modality : counts.modalityConflicts = pairCount modalityChanged processed candidates
  relationship : counts.relationshipConflicts = pairCount relationshipChanged processed candidates

namespace Tracked

variable {candidates processed : List ClaimEvidence} {used : List Bool} {counts : ClaimComparisonCounts}

theorem initial (candidates : List ClaimEvidence) (source candidate : ClaimEvidenceSet) :
    Tracked candidates [] (List.replicate candidates.length false) (surveyed source candidate) := by
  refine ⟨?_, by simp, by simp, rfl, rfl, rfl, rfl⟩
  intro index candidate found
  have inside := (List.getElem?_eq_some_iff.mp found).1
  simp [inside]

theorem unambiguous (tracked : Tracked candidates processed used counts) : ¬Ambiguous processed candidates := by
  rintro (⟨source, member, twice⟩ | ⟨candidate, member, twice⟩)
  · exact absurd (tracked.unique source member) (by omega)
  · exact absurd (tracked.single candidate member) (by omega)

theorem miss (tracked : Tracked candidates processed used counts) {claim : ClaimEvidence}
    (unrelated : candidates.countP (sameRelation claim) = 0) :
    Tracked candidates (processed ++ [claim]) used { counts with missingClaims := counts.missingClaims + 1 } := by
  have apart : ∀ candidate ∈ candidates, sameRelation claim candidate = false := by
    simpa [countP_eq_zero] using unrelated
  have none (holds : ClaimEvidence → ClaimEvidence → Bool) : pairCount holds [claim] candidates = 0 := by
    simp only [pairCount, map_cons, map_nil, sum_singleton, countP_eq_zero]
    intro candidate member
    simp [apart candidate member]
  constructor
  · intro index candidate found
    rw [tracked.flagged index candidate found]
    simp [apart candidate (mem_of_getElem? found)]
  · intro candidate member
    simpa [apart candidate member] using tracked.single candidate member
  · exact forall_mem_append.mpr ⟨tracked.unique, forall_mem_singleton.mpr (by omega)⟩
  · rw [pairCount_append, none]
    exact tracked.aligned
  · rw [pairCount_append, none]
    exact tracked.polarity
  · rw [pairCount_append, none]
    exact tracked.modality
  · rw [pairCount_append, none]
    exact tracked.relationship

theorem align (tracked : Tracked candidates processed used counts) (flags : used.length = candidates.length)
    {claim other : ClaimEvidence} {index : Nat} (found : candidates[index]? = some other) (relation : sameRelation claim other = true)
    (once : candidates.countP (sameRelation claim) = 1) (free : used.getD index false = false) :
    Tracked candidates (processed ++ [claim]) (used.set index true) (alignedCounts claim other counts) := by
  have inside : index < used.length := flags ▸ (List.getElem?_eq_some_iff.mp found).1
  have here : ∀ position candidate, candidates[position]? = some candidate → sameRelation claim candidate = true → position = index :=
    fun position candidate place related => index_unique (Nat.le_of_eq once) place related found relation
  have only : candidates.filter (sameRelation claim) = [other] := by
    rw [countP_eq_length_filter] at once
    obtain ⟨single, same⟩ := length_eq_one_iff.mp once
    have member : other ∈ candidates.filter (sameRelation claim) := mem_filter.mpr ⟨mem_of_getElem? found, relation⟩
    rw [same] at member ⊢
    rw [mem_singleton.mp member]
  have paired (holds : ClaimEvidence → ClaimEvidence → Bool) : pairCount holds [claim] candidates = (holds claim other).toNat := by
    have filtered := countP_filter (p := holds claim) (q := sameRelation claim) (l := candidates)
    rw [only] at filtered
    simp only [pairCount, map_cons, map_nil, sum_singleton, Bool.and_comm (sameRelation claim _), ← filtered]
    cases truth : holds claim other <;> simp [truth]
  constructor
  · intro position candidate place
    rw [any_append, ← tracked.flagged position candidate place, any_cons, any_nil, Bool.or_false]
    by_cases hit : position = index
    · subst hit
      obtain rfl : other = candidate := Option.some.inj (found.symm.trans place)
      simp [inside, relation]
    · have unrelated : sameRelation claim candidate = false := by
        simpa using fun related => hit (here position candidate place related)
      simp [unrelated, List.getElem?_set_ne (Ne.symm hit)]
  · intro candidate member
    obtain ⟨position, place⟩ := mem_iff_getElem?.mp member
    have before := tracked.single candidate member
    cases related : sameRelation claim candidate with
    | false => simpa [related] using before
    | true =>
      obtain rfl := here position candidate place related
      have unclaimed := (tracked.flagged position candidate place).symm.trans free
      have fresh : processed.countP (fun source => sameRelation source candidate) = 0 := by
        simpa [countP_eq_zero] using unclaimed
      simp [fresh, related]
  · exact forall_mem_append.mpr ⟨tracked.unique, forall_mem_singleton.mpr (Nat.le_of_eq once)⟩
  · simpa [alignedCounts, pairCount_append, paired] using tracked.aligned
  · simpa [alignedCounts, pairCount_append, paired] using tracked.polarity
  · simpa [alignedCounts, pairCount_append, paired] using tracked.modality
  · simpa [alignedCounts, pairCount_append, paired] using tracked.relationship

end Tracked

/-- The loop stops exactly where an ambiguity shows, and otherwise has counted the related pairs. -/
theorem alignClaims_tracks (candidates remaining : List ClaimEvidence) {processed : List ClaimEvidence} {used : List Bool}
    {counts : ClaimComparisonCounts} (held : Accounted candidates processed used counts)
    (tracked : Tracked candidates processed used counts) (room : processed.length + remaining.length < u32Limit) :
    (alignClaims candidates remaining used counts = .error .ambiguousAlignment ∧ Ambiguous (processed ++ remaining) candidates) ∨
      ∃ finalUsed finalCounts, alignClaims candidates remaining used counts = .ok (finalUsed, finalCounts) ∧
        Tracked candidates (processed ++ remaining) finalUsed finalCounts := by
  induction remaining generalizing processed used counts with
  | nil => exact Or.inr ⟨used, counts, rfl, by simpa using tracked⟩
  | cons claim rest ih =>
    rw [length_cons] at room
    have laterRoom : (processed ++ [claim]).length + rest.length < u32Limit := by
      simp only [length_append, length_singleton]
      omega
    rw [show processed ++ claim :: rest = (processed ++ [claim]) ++ rest by simp]
    rcases alignClaims_cons held (by omega) claim rest with
      ⟨none, step⟩ | ⟨other, index, found, relation, ⟨several | taken, step⟩ | ⟨⟨once, free⟩, step⟩⟩
    · rw [step]
      exact ih (held.miss claim) (tracked.miss none) laterRoom
    · exact .inl ⟨step, .inl ⟨claim, by simp, several⟩⟩
    · -- a match that an earlier source claim already holds
      refine .inl ⟨step, .inr ⟨other, mem_of_getElem? found, ?_⟩⟩
      rw [tracked.flagged index other found] at taken
      have earlier : 0 < processed.countP fun source => sameRelation source other := by simpa [countP_pos_iff] using taken
      simp only [countP_append, countP_cons, relation, if_true]
      omega
    · rw [step]
      exact ih (held.align found relation free) (tracked.align held.flags found relation once free) laterRoom

/-- The aggregate of an unambiguous comparison. -/
def pairedCounts (source candidate : ClaimEvidenceSet) : ClaimComparisonCounts :=
  let aligned := pairCount (fun _ _ => true) source.claims candidate.claims
  { surveyed source candidate with
    alignedClaims := aligned
    missingClaims := source.claims.length - aligned
    novelClaims := candidate.claims.length - aligned
    polarityConflicts := pairCount polarityChanged source.claims candidate.claims
    modalityConflicts := pairCount modalityChanged source.claims candidate.claims
    relationshipConflicts := pairCount relationshipChanged source.claims candidate.claims }

theorem pairedCounts_exchanged (source candidate : ClaimEvidenceSet) :
    pairedCounts candidate source = exchanged (pairedCounts source candidate) := by
  have aligned := @pairCount_comm (fun _ _ => true) (fun _ _ => rfl) candidate.claims source.claims
  have polarity := pairCount_comm polarityChanged_comm candidate.claims source.claims
  have modality := pairCount_comm modalityChanged_comm candidate.claims source.claims
  have relationship := pairCount_comm relationshipChanged_comm candidate.claims source.claims
  simp only [pairedCounts, exchanged, surveyed, aligned, polarity, modality, relationship]

/-- A comparison of compatible sets is decided by how often their claims are related. -/
theorem compare_decided {source candidate : ClaimEvidenceSet} (compatible : validateCompatibleSets source candidate = .ok ())
    (claims : source.claims ≠ []) : (Ambiguous source.claims candidate.claims ∧ compare source candidate = .error .ambiguousAlignment) ∨
      ¬Ambiguous source.claims candidate.claims ∧
        ∃ evidence, compare source candidate = .ok evidence ∧ evidence.counts = pairedCounts source candidate := by
  have room : ([] : List ClaimEvidence).length + source.claims.length < u32Limit := by
    simpa using length_lt_u32Limit source
  have decided := alignClaims_tracks candidate.claims source.claims (Accounted.initial candidate.claims source candidate)
    (Tracked.initial candidate.claims source candidate) room
  rcases compare_of_compatible compatible (fun missing => claims missing.2) with
    ⟨stopped, refused⟩ | ⟨evidence, used, counts, run, accepted, shape, held, kept⟩
  · rcases decided with ⟨-, ambiguous⟩ | ⟨used, counts, run, -⟩
    · exact Or.inl ⟨ambiguous, refused⟩
    · cases stopped.symm.trans run
  · rcases decided with ⟨stopped, -⟩ | ⟨used', counts', run', tracked⟩
    · cases stopped.symm.trans run
    cases run.symm.trans run'
    refine Or.inr ⟨tracked.unambiguous, evidence, accepted, ?_⟩
    have flagged := count_false_add_count_true used
    obtain ⟨flags, flips, accounted, -, -, -, -⟩ := held
    simp only [nil_append] at tracked
    have missing : counts.missingClaims = source.claims.length - counts.alignedClaims := by omega
    have novel : used.count false = candidate.claims.length - counts.alignedClaims := by omega
    simp only [census, surveyed, ClaimComparisonCounts.mk.injEq, true_and] at kept
    obtain ⟨sources, candidates, p, q, r, t, u, v⟩ := kept
    rw [shape]
    simp only [pairedCounts, surveyed, missing, novel, tracked.aligned, tracked.polarity, tracked.modality, tracked.relationship,
      sources, candidates, p, q, r, t, u, v]

theorem validateCompatibleSets_comm {source candidate : ClaimEvidenceSet} (claims : candidate.claims ≠ [])
    (compatible : validateCompatibleSets source candidate = .ok ()) : validateCompatibleSets candidate source = .ok () := by
  simp only [validateCompatibleSets] at compatible ⊢
  split at compatible
  · cases compatible
  next extractor =>
    simp only [not_or, not_not] at extractor
    obtain ⟨identity, version, manifest, schema, threshold⟩ := extractor
    split at compatible
    · cases compatible
    next unit =>
      split at compatible
      · cases compatible
      next complete =>
        rw [if_neg (by simp [identity, version, manifest, schema, threshold]), if_neg (fun other => unit (Ne.symm other)),
          if_neg (fun other => complete other.symm), if_neg (fun missing => claims missing.2)]

/-- One direction decides the other: they succeed together, are ambiguous together, and their
aggregates differ only in which side is called the source. -/
theorem comparison_is_dual (source candidate : ClaimEvidenceSet) (claims : source.claims ≠ []) (others : candidate.claims ≠ []) :
    ((∃ evidence, compare source candidate = .ok evidence) ↔ ∃ evidence, compare candidate source = .ok evidence) ∧
    (compare source candidate = .error .ambiguousAlignment ↔ compare candidate source = .error .ambiguousAlignment) ∧
    ∀ forward backward, compare source candidate = .ok forward → compare candidate source = .ok backward →
      backward.counts = exchanged forward.counts := by
  rcases validateCompatibleSets_cases source candidate with ⟨fault, refused, named, -⟩ | ⟨compatible, -⟩
  · -- neither direction gets past the compatibility check
    rcases validateCompatibleSets_cases candidate source with ⟨other, alsoRefused, alsoNamed, -⟩ | ⟨compatible, -⟩
    · have first : compare source candidate = .error fault := by rw [compare, refused]; rfl
      have second : compare candidate source = .error other := by rw [compare, alsoRefused]; rfl
      simp [first, second, named, alsoNamed]
    · cases refused.symm.trans (validateCompatibleSets_comm claims compatible)
  · have back := validateCompatibleSets_comm others compatible
    rcases compare_decided compatible claims with ⟨ambiguous, refused⟩ | ⟨clear, forward, run, counts⟩
    · rcases compare_decided back others with ⟨-, alsoRefused⟩ | ⟨clear, -⟩
      · simp [refused, alsoRefused]
      · exact absurd (Ambiguous.comm.mp ambiguous) clear
    · rcases compare_decided back others with ⟨ambiguous, -⟩ | ⟨-, backward, backRun, backCounts⟩
      · exact absurd (Ambiguous.comm.mp ambiguous) clear
      · rw [run, backRun]
        refine ⟨by simp, by simp, ?_⟩
        rintro _ _ ⟨⟩ ⟨⟩
        rw [counts, backCounts, pairedCounts_exchanged]

/-- The same extraction with the claim denied. -/
def deniedClaimSet : ClaimEvidenceSet :=
  { singleClaimSet with
    claims := singleClaimSet.claims.map fun claim => { claim with polarity := .negated }
    claimsBounded := by decide
    claimsOrdered := by simp [singleClaimSet] }

theorem comparison_is_dual_denied :
    ∃ forward backward, compare singleClaimSet deniedClaimSet = .ok forward ∧ compare deniedClaimSet singleClaimSet = .ok backward ∧
      backward.counts = exchanged forward.counts := by
  obtain ⟨together, -, counts⟩ := comparison_is_dual singleClaimSet deniedClaimSet (by decide) (by decide)
  have aligned : (compare singleClaimSet deniedClaimSet).toOption.isSome = true := rfl
  cases run : compare singleClaimSet deniedClaimSet with
  | error fault => simp [run, Except.toOption] at aligned
  | ok forward =>
    obtain ⟨backward, back⟩ := together.mp ⟨forward, run⟩
    exact ⟨forward, backward, rfl, back, counts forward backward run back⟩

end Retonr.ClaimEvidenceComparator
