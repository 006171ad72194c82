import Retonr.Engine.ClaimComparison
import Retonr.Lib.Except

/-! What a claim comparison says. The alignment loop accounts for every source claim,
so its aggregate always passes its own validation, and an aggregate with neither
difference nor uncertainty leaves no room for two claim lists to disagree. -/

namespace Retonr.ClaimEvidenceComparator
open List Retonr.Except

/-- Two claims that report the same proposition under the same identity. -/
structure SameClaim (source candidate : ClaimEvidence) : Prop where
  claimId : source.claimId = candidate.claimId
  subjectId : source.subjectId = candidate.subjectId
  predicateId : source.predicateId = candidate.predicateId
  objectId : source.objectId = candidate.objectId
  polarity : source.polarity = candidate.polarity
  modality : source.modality = candidate.modality
  conditionCount : source.conditionCount = candidate.conditionCount
  attributed : source.attributed = candidate.attributed

/-- The counts that the alignment loop leaves alone. -/
def census (counts : ClaimComparisonCounts) : ClaimComparisonCounts :=
  { counts with alignedClaims := 0, missingClaims := 0, novelClaims := 0, polarityConflicts := 0,
                modalityConflicts := 0, relationshipConflicts := 0 }

def surveyed (source candidate : ClaimEvidenceSet) : ClaimComparisonCounts where
  sourceClaims := source.claims.length
  candidateClaims := candidate.claims.length
  alignedClaims := 0
  missingClaims := 0
  novelClaims := 0
  polarityConflicts := 0
  modalityConflicts := 0
  relationshipConflicts := 0
  sourceUnknownPolarity := source.claims.countP (·.polarity == .unknown)
  candidateUnknownPolarity := candidate.claims.countP (·.polarity == .unknown)
  sourceUnknownModality := source.claims.countP (·.modality == .unknown)
  candidateUnknownModality := candidate.claims.countP (·.modality == .unknown)
  sourceBelowConfidence := source.claims.countP fun claim => decide (claim.confidencePpm < source.minimumConfidencePpm)
  candidateBelowConfidence :=
    candidate.claims.countP fun claim => decide (claim.confidencePpm < candidate.minimumConfidencePpm)

theorem increment_eq {value : Nat} (room : value + 1 < u32Limit) : increment value = .ok (value + 1) := by
  simp [increment, room]

theorem incrementIf_eq (condition : Bool) {value : Nat} (room : value + 1 < u32Limit) :
    incrementIf condition value = .ok (value + condition.toNat) := by
  cases condition <;> simp [incrementIf, increment_eq room]

/-- The counts after the uncertainty of one side's claims was added to them. -/
def tallied (source : Bool) (claims : List ClaimEvidence) (thresholdPpm : Nat) (counts : ClaimComparisonCounts) :
    ClaimComparisonCounts :=
  let unknownPolarity := claims.countP (·.polarity == .unknown)
  let unknownModality := claims.countP (·.modality == .unknown)
  let belowConfidence := claims.countP fun claim => decide (claim.confidencePpm < thresholdPpm)
  if source then
    { counts with sourceUnknownPolarity := counts.sourceUnknownPolarity + unknownPolarity
                  sourceUnknownModality := counts.sourceUnknownModality + unknownModality
                  sourceBelowConfidence := counts.sourceBelowConfidence + belowConfidence }
  else
    { counts with candidateUnknownPolarity := counts.candidateUnknownPolarity + unknownPolarity
                  candidateUnknownModality := counts.candidateUnknownModality + unknownModality
                  candidateBelowConfidence := counts.candidateBelowConfidence + belowConfidence }

/-- The uncertainty counts can still take this many increments. -/
structure Room (counts : ClaimComparisonCounts) (extra : Nat) : Prop where
  sourcePolarity : counts.sourceUnknownPolarity + extra < u32Limit
  candidatePolarity : counts.candidateUnknownPolarity + extra < u32Limit
  sourceModality : counts.sourceUnknownModality + extra < u32Limit
  candidateModality : counts.candidateUnknownModality + extra < u32Limit
  sourceConfidence : counts.sourceBelowConfidence + extra < u32Limit
  candidateConfidence : counts.candidateBelowConfidence + extra < u32Limit

private theorem toNat_eq_countP (holds : ClaimEvidence → Bool) (claim : ClaimEvidence) : (holds claim).toNat = [claim].countP holds := by
  cases truth : holds claim <;> simp [truth]

variable {counts : ClaimComparisonCounts}

theorem countUncertainty_eq (source : Bool) (claim : ClaimEvidence) (thresholdPpm : Nat) (room : Room counts 1) :
    countUncertainty claim thresholdPpm source counts = .ok (tallied source [claim] thresholdPpm counts) := by
  have polarity := toNat_eq_countP (·.polarity == .unknown) claim
  have modality := toNat_eq_countP (·.modality == .unknown) claim
  have confidence := toNat_eq_countP (fun claim => decide (claim.confidencePpm < thresholdPpm)) claim
  cases source
  · simp only [countUncertainty, Bool.false_eq_true, if_false, incrementIf_eq _ room.candidatePolarity,
      incrementIf_eq _ room.candidateModality, incrementIf_eq _ room.candidateConfidence, polarity, modality, confidence]
    rfl
  · simp only [countUncertainty, if_true, incrementIf_eq _ room.sourcePolarity,
      incrementIf_eq _ room.sourceModality, incrementIf_eq _ room.sourceConfidence, polarity, modality, confidence]
    rfl

theorem tallied_cons (source : Bool) (claim : ClaimEvidence) (claims : List ClaimEvidence) (thresholdPpm : Nat)
    (counts : ClaimComparisonCounts) : tallied source claims thresholdPpm (tallied source [claim] thresholdPpm counts) =
      tallied source (claim :: claims) thresholdPpm counts := by
  have split (holds : ClaimEvidence → Bool) : (claim :: claims).countP holds = [claim].countP holds + claims.countP holds := by
    rw [← countP_append, singleton_append]
  cases source <;> simp only [tallied, split, Nat.add_assoc, Bool.false_eq_true, if_false, if_true]

theorem Room.tallied {claims : List ClaimEvidence} {extra : Nat} (source : Bool)
    (thresholdPpm : Nat) (room : Room counts (claims.length + extra)) : Room (tallied source claims thresholdPpm counts) extra := by
  have fits (holds : ClaimEvidence → Bool) : claims.countP holds ≤ claims.length := countP_le_length
  have polarity := fits (·.polarity == .unknown)
  have modality := fits (·.modality == .unknown)
  have confidence := fits fun claim => decide (claim.confidencePpm < thresholdPpm)
  obtain ⟨_, _, _, _, _, _⟩ := room
  cases source <;> constructor <;>
    simp only [ClaimEvidenceComparator.tallied, Bool.false_eq_true, if_false, if_true] <;> omega

theorem foldlM_countUncertainty (source : Bool) (claims : List ClaimEvidence) (thresholdPpm : Nat) (room : Room counts claims.length) :
    claims.foldlM (fun counts claim => countUncertainty claim thresholdPpm source counts) counts =
      .ok (tallied source claims thresholdPpm counts) := by
  induction claims generalizing counts with
  | nil => cases source <;> rfl
  | cons claim claims ih =>
    have single : Room counts 1 := by
      obtain ⟨_, _, _, _, _, _⟩ := room
      simp only [length_cons] at *
      constructor <;> omega
    have later : Room (tallied source [claim] thresholdPpm counts) claims.length :=
      Room.tallied source thresholdPpm (by simpa [Nat.add_comm] using room)
    rw [foldlM_cons, countUncertainty_eq source claim thresholdPpm single, ← tallied_cons source claim claims]
    exact ih later

theorem length_lt_u32Limit (set : ClaimEvidenceSet) : set.claims.length < u32Limit :=
  Nat.lt_of_le_of_lt set.claimsBounded (by decide)

theorem baseCounts_eq (source candidate : ClaimEvidenceSet) : baseCounts source candidate = .ok (surveyed source candidate) := by
  have sourceBounded := source.claimsBounded
  have candidateBounded := candidate.claimsBounded
  have room : Room ⟨source.claims.length, candidate.claims.length, 0, 0, 0, 0, 0, 0, 0, 0, 0, 0, 0, 0⟩
      (source.claims.length + candidate.claims.length) := by
    constructor <;> simp only [u32Limit, maxClaimsPerUnit] at * <;> omega
  have first : Room ⟨source.claims.length, candidate.claims.length, 0, 0, 0, 0, 0, 0, 0, 0, 0, 0, 0, 0⟩
      source.claims.length := by
    constructor <;> simp only [u32Limit, maxClaimsPerUnit] at * <;> omega
  simp only [baseCounts, count, length_lt_u32Limit, if_true, ok_bind, foldlM_countUncertainty true _ _ first]
  refine (foldlM_countUncertainty false _ _ (Room.tallied true _ room)).trans ?_
  simp [surveyed, tallied]

/-- An aligned pair that raised no conflict count. -/
structure Settled (source candidate : ClaimEvidence) : Prop where
  relation : sameRelation source candidate = true
  polarity : polarityChanged source candidate = false
  modality : modalityChanged source candidate = false
  relationship : relationshipChanged source candidate = false

/-- What the alignment loop knows after the processed source claims. -/
structure Accounted (candidates processed : List ClaimEvidence) (used : List Bool) (counts : ClaimComparisonCounts) : Prop where
  flags : used.length = candidates.length
  aligned : counts.alignedClaims = used.count true
  accounted : counts.alignedClaims + counts.missingClaims = processed.length
  polarity : counts.polarityConflicts ≤ counts.alignedClaims
  modality : counts.modalityConflicts ≤ counts.alignedClaims
  relationship : counts.relationshipConflicts ≤ counts.alignedClaims
  settled : counts.missingClaims = 0 → counts.polarityConflicts = 0 → counts.modalityConflicts = 0 →
    counts.relationshipConflicts = 0 → ∀ claim ∈ processed, ∃ other ∈ candidates, Settled claim other

theorem Accounted.initial (candidates : List ClaimEvidence) (source candidate : ClaimEvidenceSet) :
    Accounted candidates [] (List.replicate candidates.length false) (surveyed source candidate) := by
  constructor <;> simp [surveyed, count_replicate]

variable {processed : List ClaimEvidence} {used : List Bool}

theorem Accounted.miss {candidates : List ClaimEvidence} (held : Accounted candidates processed used counts) (claim : ClaimEvidence) :
    Accounted candidates (processed ++ [claim]) used { counts with missingClaims := counts.missingClaims + 1 } where
  flags := held.flags
  aligned := held.aligned
  accounted := by
    have before := held.accounted
    simp only [length_append, length_singleton]
    omega
  polarity := held.polarity
  modality := held.modality
  relationship := held.relationship
  settled := by simp

private theorem count_set_true {index : Nat} (inside : index < used.length)
    (free : used.getD index false = false) : (used.set index true).count true = used.count true + 1 := by
  induction used generalizing index with
  | nil => simp at inside
  | cons flag used ih =>
    cases index with
    | zero =>
      obtain rfl : flag = false := by simpa using free
      simp
    | succ index =>
      have later := ih (by simpa using inside) (by simpa using free)
      simp only [set_cons_succ, count_cons, later]
      omega

/-- The counts after one aligned pair. -/
def alignedCounts (source candidate : ClaimEvidence) (counts : ClaimComparisonCounts) : ClaimComparisonCounts :=
  { counts with
    alignedClaims := counts.alignedClaims + 1
    polarityConflicts := counts.polarityConflicts + (polarityChanged source candidate).toNat
    modalityConflicts := counts.modalityConflicts + (modalityChanged source candidate).toNat
    relationshipConflicts := counts.relationshipConflicts + (relationshipChanged source candidate).toNat }

theorem Accounted.align {candidates : List ClaimEvidence}
    (held : Accounted candidates processed used counts) {claim other : ClaimEvidence} {index : Nat}
    (found : candidates[index]? = some other) (relation : sameRelation claim other = true) (free : used.getD index false = false) :
    Accounted candidates (processed ++ [claim]) (used.set index true) (alignedCounts claim other counts) := by
  have inside : index < used.length := held.flags ▸ (List.getElem?_eq_some_iff.mp found).1
  have flips := count_set_true inside free
  have fits (flag : Bool) : flag.toNat ≤ 1 := by cases flag <;> decide
  constructor
  · simpa using held.flags
  · simpa [alignedCounts, flips] using held.aligned
  · have before := held.accounted
    simp only [alignedCounts, length_append, length_singleton]
    omega
  · exact Nat.add_le_add held.polarity (fits _)
  · exact Nat.add_le_add held.modality (fits _)
  · exact Nat.add_le_add held.relationship (fits _)
  · intro missing polarity modality relationship
    simp only [alignedCounts, Nat.add_eq_zero_iff, Bool.toNat_eq_zero] at missing polarity modality relationship
    exact forall_mem_append.mpr ⟨held.settled missing polarity.1 modality.1 relationship.1,
      forall_mem_singleton.mpr ⟨other, mem_of_getElem? found, relation, polarity.2, modality.2, relationship.2⟩⟩

theorem compareAligned_eq (source candidate : ClaimEvidence)
    (polarity : counts.polarityConflicts + 1 < u32Limit) (modality : counts.modalityConflicts + 1 < u32Limit)
    (relationship : counts.relationshipConflicts + 1 < u32Limit) :
    compareAligned source candidate { counts with alignedClaims := counts.alignedClaims + 1 } =
      .ok (alignedCounts source candidate counts) := by
  simp only [compareAligned, incrementIf_eq _ polarity, incrementIf_eq _ modality, incrementIf_eq _ relationship]
  rfl

theorem length_matches (claim : ClaimEvidence) (candidates : List ClaimEvidence) :
    (candidates.zipIdx.filter fun entry => sameRelation claim entry.1).length = candidates.countP (sameRelation claim) := by
  have listed := congrArg (List.countP (sameRelation claim)) (zipIdx_map_fst 0 candidates)
  rw [countP_map] at listed
  rw [← listed, countP_eq_length_filter]
  rfl

/-- One round of the loop: the claim is related to nothing, or its first related candidate is ambiguous or free. -/
theorem alignClaims_cons {candidates : List ClaimEvidence} (held : Accounted candidates processed used counts)
    (room : processed.length + 1 < u32Limit) (claim : ClaimEvidence) (rest : List ClaimEvidence) :
    (candidates.countP (sameRelation claim) = 0 ∧
      alignClaims candidates (claim :: rest) used counts = alignClaims candidates rest used { counts with missingClaims := counts.missingClaims + 1 }) ∨
    ∃ other index, candidates[index]? = some other ∧ sameRelation claim other = true ∧
      ((2 ≤ candidates.countP (sameRelation claim) ∨ used.getD index false = true) ∧
        alignClaims candidates (claim :: rest) used counts = .error .ambiguousAlignment ∨
      (candidates.countP (sameRelation claim) = 1 ∧ used.getD index false = false) ∧
        alignClaims candidates (claim :: rest) used counts =
          alignClaims candidates rest (used.set index true) (alignedCounts claim other counts)) := by
  have total := held.accounted
  have polarityBound := held.polarity
  have modalityBound := held.modality
  have relationshipBound := held.relationship
  have matched := length_matches claim candidates
  simp only [alignClaims]
  split
  next none =>
    rw [none, length_nil] at matched
    rw [increment_eq (by omega), ok_bind]
    exact .inl ⟨matched.symm, rfl⟩
  next other index others listed =>
    have first : (other, index) ∈ candidates.zipIdx.filter fun entry => sameRelation claim entry.1 := by simp [listed]
    obtain ⟨inList, relation⟩ := mem_filter.mp first
    rw [listed, length_cons] at matched
    refine .inr ⟨other, index, mem_zipIdx_iff_getElem?.mp inList, relation, ?_⟩
    split
    next refused =>
      refine .inl ⟨(Bool.or_eq_true_iff.mp refused).imp_left fun several => ?_, rfl⟩
      have more : 0 < others.length := length_pos_iff.mpr (by simpa using several)
      omega
    next unique =>
      simp only [Bool.or_eq_true, not_or, Bool.not_eq_true] at unique
      have single : others = [] := by simpa using unique.1
      rw [increment_eq (by omega), ok_bind, compareAligned_eq claim other (by omega) (by omega) (by omega), ok_bind]
      exact .inr ⟨⟨by rw [← matched, single, length_nil], unique.2⟩, rfl⟩

/-- From an accounted state the loop either finds an ambiguous alignment or accounts for every claim. -/
theorem alignClaims_accounts (candidates remaining : List ClaimEvidence) (held : Accounted candidates processed used counts)
    (room : processed.length + remaining.length < u32Limit) : alignClaims candidates remaining used counts = .error .ambiguousAlignment ∨
      ∃ finalUsed finalCounts, alignClaims candidates remaining used counts = .ok (finalUsed, finalCounts) ∧
        Accounted candidates (processed ++ remaining) finalUsed finalCounts ∧ census finalCounts = census counts := by
  induction remaining generalizing processed used counts with
  | nil => exact Or.inr ⟨used, counts, rfl, by simpa using held, rfl⟩
  | cons claim rest ih =>
    rw [length_cons] at room
    have laterRoom : (processed ++ [claim]).length + rest.length < u32Limit := by
      simp only [length_append, length_singleton]
      omega
    rw [show processed ++ claim :: rest = (processed ++ [claim]) ++ rest by simp]
    rcases alignClaims_cons held (by omega) claim rest with ⟨-, step⟩ | ⟨other, index, found, relation, ⟨-, step⟩ | ⟨⟨-, free⟩, step⟩⟩
    · rw [step]
      exact ih (held.miss claim) laterRoom
    · exact .inl step
    · rw [step]
      exact ih (held.align found relation free) laterRoom

theorem countNovel_eq (room : used.length < u32Limit) : countNovel used = .ok (used.count false) := by
  have general : ∀ novel, novel + used.length < u32Limit →
      used.foldlM (fun novel flag => incrementIf (!flag) novel) novel = .ok (novel + used.count false) := by
    clear room
    induction used with
    | nil => intro novel _; rfl
    | cons flag used ih =>
      intro novel bound
      simp only [length_cons] at bound
      rw [foldlM_cons, incrementIf_eq _ (by omega), ok_bind]
      cases flag
      · simpa [Nat.add_assoc, Nat.add_comm 1] using ih (novel + 1) (by omega)
      · simpa using ih novel (by omega)
  simpa [countNovel] using general 0 (by omega)

theorem count_false_add_count_true (used : List Bool) : used.count false + used.count true = used.length := by
  induction used with
  | nil => rfl
  | cons flag used ih =>
    cases flag <;> simp only [count_cons, length_cons] <;> simp <;> omega

variable {source candidate : ClaimEvidenceSet}

/-- A finished loop leaves counts that pass the aggregate's own validation. -/
theorem Accounted.validates (held : Accounted candidate.claims source.claims used counts)
    (kept : census counts = census (surveyed source candidate)) :
    ClaimComparisonCounts.validate { counts with novelClaims := used.count false } =
      .ok { counts with novelClaims := used.count false } := by
  obtain ⟨flags, aligned, accounted, polarity, modality, relationship, _⟩ := held
  have flagged := count_false_add_count_true used
  have sourceBounded := source.claimsBounded
  have candidateBounded := candidate.claimsBounded
  have sourceSubset (holds : ClaimEvidence → Bool) : source.claims.countP holds ≤ source.claims.length :=
    countP_le_length
  have candidateSubset (holds : ClaimEvidence → Bool) : candidate.claims.countP holds ≤ candidate.claims.length :=
    countP_le_length
  simp only [census, surveyed, ClaimComparisonCounts.mk.injEq, true_and] at kept
  obtain ⟨sources, candidates, p, q, r, t, u, v⟩ := kept
  simp only [ClaimComparisonCounts.validate, sources, candidates, p, q, r, t, u, v]
  rw [if_neg (by simp only [u32Limit, maxClaimsPerUnit] at *; omega), if_neg]
  simp only [mem_cons, not_mem_nil, or_false, exists_eq_or_imp, exists_eq_left, not_or, Nat.not_lt, not_not]
  exact ⟨sourceBounded, candidateBounded, accounted, by omega, polarity, modality, relationship,
    ⟨sourceSubset _, sourceSubset _, sourceSubset _⟩, candidateSubset _, candidateSubset _, candidateSubset _⟩

theorem new_of_validates (manifest : Digest) (unitId : RewriteUnitId) (sourceText candidateText sourceEvidence candidateEvidence : Digest)
    (candidateBytes : Nat) {sourceBytes thresholdPpm : Nat}
    (threshold : thresholdPpm ≤ claimConfidencePartsPerMillion) (sufficient : ¬(0 < sourceBytes ∧ counts.sourceClaims = 0))
    (validated : counts.validate = .ok counts) :
    ∃ evidence, ClaimComparisonEvidence.new manifest unitId sourceText sourceBytes candidateText candidateBytes
      sourceEvidence candidateEvidence thresholdPpm counts = .ok evidence ∧ evidence.counts = counts := by
  refine ⟨⟨claimComparisonSchemaVersion, claimEvidenceSchemaVersion, claimComparatorVersion, manifest, unitId, sourceText,
    sourceBytes, candidateText, candidateBytes, sourceEvidence, candidateEvidence, thresholdPpm, counts⟩, ?_, rfl⟩
  simp only [ClaimComparisonEvidence.new, ClaimComparisonEvidence.validate, validated]
  rw [if_neg]
  · rfl
  · simp only [ne_eq, not_true_eq_false, false_or, not_or, Nat.not_lt]
    exact ⟨threshold, sufficient⟩

/-- Incompatible sets are refused for a reason of their own; compatible ones carry source evidence. -/
theorem validateCompatibleSets_cases (source candidate : ClaimEvidenceSet) :
    (∃ fault, validateCompatibleSets source candidate = .error fault ∧ fault ≠ .ambiguousAlignment ∧ fault ≠ .countOverflow ∧
        fault ≠ .invalidAggregate) ∨ validateCompatibleSets source candidate = .ok () ∧ ¬(0 < source.textBytes ∧ source.claims = []) := by
  simp only [validateCompatibleSets]
  split
  · exact Or.inl ⟨_, rfl, by decide, by decide, by decide⟩
  · split
    · exact Or.inl ⟨_, rfl, by decide, by decide, by decide⟩
    · split
      · exact Or.inl ⟨_, rfl, by decide, by decide, by decide⟩
      · split
        · exact Or.inl ⟨_, rfl, by decide, by decide, by decide⟩
        next sufficient => exact Or.inr ⟨rfl, sufficient⟩

theorem compare_of_compatible (compatible : validateCompatibleSets source candidate = .ok ())
    (sufficient : ¬(0 < source.textBytes ∧ source.claims = [])) :
    (alignClaims candidate.claims source.claims (List.replicate candidate.claims.length false) (surveyed source candidate) =
        .error .ambiguousAlignment ∧ compare source candidate = .error .ambiguousAlignment) ∨
      ∃ evidence used counts,
        alignClaims candidate.claims source.claims (List.replicate candidate.claims.length false) (surveyed source candidate) =
          .ok (used, counts) ∧ compare source candidate = .ok evidence ∧
        evidence.counts = { counts with novelClaims := used.count false } ∧
        Accounted candidate.claims source.claims used counts ∧ census counts = census (surveyed source candidate) := by
  simp only [compare]
  have start := Accounted.initial candidate.claims source candidate
  have room : ([] : List ClaimEvidence).length + source.claims.length < u32Limit := by
    simpa using length_lt_u32Limit source
  rw [compatible, baseCounts_eq]
  rcases alignClaims_accounts candidate.claims source.claims start room with ambiguous | ⟨used, counts, run, held, kept⟩
  · exact Or.inl ⟨ambiguous, by rw [ok_bind, ok_bind, ambiguous]; rfl⟩
  have fits : used.length < u32Limit := held.flags ▸ length_lt_u32Limit candidate
  have claimsKept : counts.sourceClaims = source.claims.length := congrArg ClaimComparisonCounts.sourceClaims kept
  obtain ⟨evidence, built, bound⟩ := new_of_validates source.extractorManifestDigest source.unitId source.textDigest
    candidate.textDigest source.evidenceDigest candidate.evidenceDigest candidate.textBytes source.thresholdBounded
    (by simpa [claimsKept] using sufficient) (held.validates kept)
  refine Or.inr ⟨evidence, used, counts, run, ?_, bound, held, kept⟩
  simp only [ok_bind, run, countNovel_eq fits, built]

/-- Every comparison is refused for a reason about its inputs or backed by a finished alignment. -/
theorem compare_cases (source candidate : ClaimEvidenceSet) :
    (∃ fault, compare source candidate = .error fault ∧ fault ≠ .countOverflow ∧ fault ≠ .invalidAggregate) ∨
      ∃ evidence used counts, compare source candidate = .ok evidence ∧
        evidence.counts = { counts with novelClaims := used.count false } ∧
        Accounted candidate.claims source.claims used counts ∧ census counts = census (surveyed source candidate) := by
  rcases validateCompatibleSets_cases source candidate with ⟨fault, refused, -, named⟩ | ⟨compatible, sufficient⟩
  · exact Or.inl ⟨fault, by rw [compare, refused]; rfl, named⟩
  rcases compare_of_compatible compatible sufficient with ⟨-, ambiguous⟩ | ⟨evidence, used, counts, -, run, rest⟩
  · exact Or.inl ⟨.ambiguousAlignment, ambiguous, by decide, by decide⟩
  · exact Or.inr ⟨evidence, used, counts, run, rest⟩

private theorem eq_of_subset_of_ordered {left right : List Text} (leftOrdered : left.Pairwise (· < ·))
    (rightOrdered : right.Pairwise (· < ·)) (contained : left ⊆ right) (length : left.length = right.length) : left = right := by
  have distinct : left.Nodup := leftOrdered.imp fun below => ne_of_lt below
  have same : left.Perm right := (distinct.subperm contained).perm_of_length_le length.ge
  exact same.eq_of_pairwise (fun _ _ _ _ below above => absurd below (lt_asymm above)) leftOrdered rightOrdered

theorem Settled.sameClaim {source candidate : ClaimEvidence} (settled : Settled source candidate)
    (sourcePolarity : source.polarity ≠ .unknown) (candidatePolarity : candidate.polarity ≠ .unknown)
    (sourceModality : source.modality ≠ .unknown) (candidateModality : candidate.modality ≠ .unknown) : SameClaim source candidate := by
  obtain ⟨relation, polarity, modality, relationship⟩ := settled
  simp only [sameRelation, Bool.and_eq_true, beq_iff_eq] at relation
  have unchanged := polarity
  have unmoved := modality
  simp only [polarityChanged, bne_iff_ne.mpr sourcePolarity, bne_iff_ne.mpr candidatePolarity, Bool.and_true, Bool.true_and,
    bne_eq_false_iff_eq] at polarity
  simp only [modalityChanged, bne_iff_ne.mpr sourceModality, bne_iff_ne.mpr candidateModality, Bool.and_true, Bool.true_and,
    bne_eq_false_iff_eq] at modality
  simp only [relationshipChanged, unchanged, unmoved, Bool.not_false, Bool.and_true, Bool.or_eq_false_iff,
    bne_eq_false_iff_eq] at relationship
  exact ⟨relationship.2, relation.1.1, relation.1.2, relation.2, polarity, modality, relationship.1.1, relationship.1.2⟩

/-- Claims that all have a settled partner in an equally long, equally ordered list agree with it place by place. -/
theorem forall₂_sameClaim (length : source.claims.length = candidate.claims.length)
    (partner : ∀ claim ∈ source.claims, ∃ other ∈ candidate.claims, SameClaim claim other) :
    List.Forall₂ SameClaim source.claims candidate.claims := by
  have identities : source.claims.map (·.claimId.asStr) = candidate.claims.map (·.claimId.asStr) := by
    refine eq_of_subset_of_ordered (pairwise_map.mpr source.claimsOrdered)
      (pairwise_map.mpr candidate.claimsOrdered) ?_ (by simpa using length)
    intro identity member
    obtain ⟨claim, inSource, rfl⟩ := mem_map.mp member
    obtain ⟨other, inCandidate, same⟩ := partner claim inSource
    exact mem_map.mpr ⟨other, inCandidate, by rw [same.claimId]⟩
  have distinct : (candidate.claims.map (·.claimId.asStr)).Nodup :=
    pairwise_map.mpr (candidate.claimsOrdered.imp fun below => ne_of_lt below)
  refine forall₂_iff_get.mpr ⟨length, fun index inSource inCandidate => ?_⟩
  obtain ⟨other, member, same⟩ := partner _ (get_mem source.claims ⟨index, inSource⟩)
  have here : (source.claims.get ⟨index, inSource⟩).claimId.asStr = (candidate.claims.get ⟨index, inCandidate⟩).claimId.asStr := by
    have at_index := congrArg (·[index]?) identities
    simpa [inSource, inCandidate] using at_index
  have unique : other = candidate.claims.get ⟨index, inCandidate⟩ :=
    inj_on_of_nodup_map distinct member (get_mem _ _) (by rw [← here, same.claimId])
  exact unique ▸ same

private theorem known_of_countP_eq_zero {claims : List ClaimEvidence} {holds : ClaimEvidence → Bool}
    (none : claims.countP holds = 0) {claim : ClaimEvidence} (member : claim ∈ claims) : holds claim = false := by
  simpa using countP_eq_zero.mp none claim member

/-- The aggregate accounts for both claim lists, is never rejected by its own rules, and, when it
reports neither difference nor uncertainty, the two lists are the same claims in the same order. -/
theorem clean_comparison_is_identity (source candidate : ClaimEvidenceSet) : (∀ evidence, compare source candidate = .ok evidence →
      evidence.counts.alignedClaims + evidence.counts.missingClaims = source.claims.length ∧
      evidence.counts.alignedClaims + evidence.counts.novelClaims = candidate.claims.length ∧
      (evidence.counts.hasDifference = false → evidence.counts.hasUncertainty = false →
        source.claims.length = candidate.claims.length ∧ List.Forall₂ SameClaim source.claims candidate.claims)) ∧
    compare source candidate ≠ .error .countOverflow ∧ compare source candidate ≠ .error .invalidAggregate := by
  rcases compare_cases source candidate with ⟨fault, refused, overflow, aggregate⟩ | ⟨evidence, used, counts, run, shape, held, kept⟩
  · rw [refused]
    exact ⟨fun _ accepted => (by cases accepted), by simpa using overflow, by simpa using aggregate⟩
  refine ⟨?_, by rw [run]; simp, by rw [run]; simp⟩
  intro accepted same
  obtain rfl : evidence = accepted := by simpa [run] using same
  have flagged := count_false_add_count_true used
  have flags := held.flags
  have aligned := held.aligned
  have accounted := held.accounted
  rw [shape]
  refine ⟨accounted, by simp only; omega, ?_⟩
  intro clean certain
  simp only [ClaimComparisonCounts.hasDifference, Bool.or_eq_false_iff, decide_eq_false_iff_not, Nat.not_lt, Nat.le_zero] at clean
  simp only [ClaimComparisonCounts.hasUncertainty, Bool.or_eq_false_iff, decide_eq_false_iff_not, Nat.not_lt, Nat.le_zero] at certain
  obtain ⟨⟨⟨⟨missing, novel⟩, polarity⟩, modality⟩, relationship⟩ := clean
  simp only [census, surveyed, ClaimComparisonCounts.mk.injEq, true_and] at kept
  obtain ⟨_, _, sourcePolarity, candidatePolarity, sourceModality, candidateModality, _, _⟩ := kept
  rw [sourcePolarity, candidatePolarity, sourceModality, candidateModality] at certain
  have length : source.claims.length = candidate.claims.length := by omega
  refine ⟨length, forall₂_sameClaim length fun claim member => ?_⟩
  obtain ⟨other, partner, settled⟩ := held.settled missing polarity modality relationship claim member
  refine ⟨other, partner, settled.sameClaim ?_ ?_ ?_ ?_⟩
  · simpa using known_of_countP_eq_zero certain.1.1.1.1.1 member
  · simpa using known_of_countP_eq_zero certain.1.1.1.1.2 partner
  · simpa using known_of_countP_eq_zero certain.1.1.1.2 member
  · simpa using known_of_countP_eq_zero certain.1.1.2 partner

/-- A complete extraction of one confident claim about a two-byte text. -/
def singleClaimSet : ClaimEvidenceSet :=
  let identity : Digest := ⟨List.replicate 64 'a', Eq.refl true⟩
  { schemaVersion := claimEvidenceSchemaVersion
    extractorId := ['e']
    extractorVersion := ['1']
    extractorManifestDigest := identity
    extractionStatus := .complete
    minimumConfidencePpm := 900000
    unitId := ⟨['u']⟩
    textDigest := identity
    textBytes := 2
    evidenceDigest := identity
    claims :=
      [{ claimId := identity
         subjectId := none
         predicateId := identity
         objectId := none
         polarity := .affirmed
         modality := .asserted
         conditionCount := 0
         attributed := false
         evidenceSpans := [⟨0, 2, by decide⟩]
         confidencePpm := 950000
         confidenceBounded := by decide
         spansCounted := by decide
         spansSolid := by decide
         spansDistinct := by decide }]
    thresholdBounded := by decide
    claimsBounded := by decide
    claimsOrdered := by simp }

theorem clean_comparison_is_identity_single : ∃ evidence, compare singleClaimSet singleClaimSet = .ok evidence ∧
      List.Forall₂ SameClaim singleClaimSet.claims singleClaimSet.claims := by
  have clean : (compare singleClaimSet singleClaimSet).toOption.map
      (fun evidence => (evidence.counts.hasDifference, evidence.counts.hasUncertainty)) = some (false, false) := rfl
  cases run : compare singleClaimSet singleClaimSet with
  | error fault => simp [run, Except.toOption] at clean
  | ok evidence =>
    simp only [run, Except.toOption, Option.map_some, Option.some.injEq, Prod.mk.injEq] at clean
    exact ⟨evidence, rfl, (((clean_comparison_is_identity _ _).1 evidence run).2.2 clean.1 clean.2).2⟩

end Retonr.ClaimEvidenceComparator
