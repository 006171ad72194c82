import Retonr.Types.Claim

/-! The digest of an evidence set is taken over bytes that determine every part of the set, and the
set itself does not remember in which order its claims and their spans were supplied. -/

namespace Retonr
open Text Framing List SourceSpan

theorem toBeBytes_eq_bigEndian (width value : Nat) : toBeBytes width value = bigEndian width value := by
  induction width generalizing value with
  | zero => rfl
  | succ width ih =>
    have shifted : ∀ index ∈ List.range width, UInt8.ofNat (value >>> (8 * (width + 1 - 1 - index))) =
        UInt8.ofNat ((value / 256) >>> (8 * (width - 1 - index))) := by
      intro index member
      have inside := mem_range.mp member
      have steps : 8 * (width + 1 - 1 - index) = 8 + 8 * (width - 1 - index) := by omega
      rw [steps, Nat.shiftRight_add, Nat.shiftRight_eq_div_pow value]
    rw [bigEndian, ← ih, toBeBytes, range_succ, map_append, map_congr_left shifted]
    simp [toBeBytes]

theorem appendPart_eq {value : Bytes} (fits : value.length < 2 ^ 64) (bytes : Bytes) : appendPart bytes value = bytes ++ sized value := by
  have whole : min value.length (2 ^ 64 - 1) = value.length := by omega
  rw [appendPart, sized, toBeBytes_eq_bigEndian, whole, append_assoc]

theorem appendPart_digest (bytes : Bytes) (digest : Digest) : appendPart bytes (encode digest.asStr) = bytes ++ sized (encode digest.asStr) :=
  appendPart_eq (by simpa using digest.byteLen_asStr_lt) bytes

theorem appendDigest_eq (bytes : Bytes) (digest : Option Digest) :
    appendDigest bytes digest = bytes ++ optional (fun digest => sized (encode digest.asStr)) digest := by
  cases digest with
  | none => rfl
  | some digest => simp [appendDigest, appendPart_digest, Framing.optional]

def spanBytes (span : SourceSpan) : Bytes := bigEndian 8 span.start ++ bigEndian 8 span.stop

def flagBytes (flag : Bool) : Bytes := [if flag then 1 else 0]

/-- What one claim adds to the bytes. -/
def claimBytes (claim : ClaimEvidence) : Bytes :=
  sized (encode claim.claimId.asStr) ++ (optional (fun digest => sized (encode digest.asStr)) claim.subjectId ++
    (sized (encode claim.predicateId.asStr) ++ (optional (fun digest => sized (encode digest.asStr)) claim.objectId ++
      ([claim.polarity.code] ++ ([claim.modality.code] ++ (bigEndian 2 claim.conditionCount.toNat ++ (flagBytes claim.attributed ++
        (bigEndian 4 claim.confidencePpm ++ counted spanBytes claim.evidenceSpans))))))))

theorem appendClaim_eq (bytes : Bytes) (claim : ClaimEvidence) : appendClaim bytes claim = bytes ++ claimBytes claim := by
  have spans : spanBytes = fun span => bigEndian 8 span.start ++ bigEndian 8 span.stop := rfl
  simp [appendClaim, claimBytes, appendPart_digest, appendDigest_eq, toBeBytes_eq_bigEndian, counted, flagBytes, spans]

theorem foldl_appendClaim (bytes : Bytes) (claims : List ClaimEvidence) :
    claims.foldl appendClaim bytes = bytes ++ claims.flatMap claimBytes := by
  induction claims generalizing bytes with
  | nil => simp
  | cons claim claims ih => rw [foldl_cons, ih, appendClaim_eq, flatMap_cons, append_assoc]

/-- What `evidenceDigest` is asked to bind. -/
structure EvidenceArguments where
  manifest : Digest
  status : ClaimExtractionStatus
  confidencePpm : Nat
  unitId : RewriteUnitId
  textDigest : Digest
  textBytes : Nat
  claims : List ClaimEvidence

namespace EvidenceArguments

def preimage (arguments : EvidenceArguments) : Bytes :=
  evidencePreimage arguments.manifest arguments.status arguments.confidencePpm arguments.unitId arguments.textDigest
    arguments.textBytes arguments.claims

/-- Every number and length is one that the machine integer it is kept in can hold. -/
structure Representable (arguments : EvidenceArguments) : Prop where
  threshold : arguments.confidencePpm < 2 ^ 32
  unit : byteLen arguments.unitId.asStr < 2 ^ 64
  text : arguments.textBytes < 2 ^ 64
  count : arguments.claims.length < 2 ^ 64
  spans : ∀ claim ∈ arguments.claims, ∀ span ∈ claim.evidenceSpans, span.stop < 2 ^ 64

theorem preimage_eq {arguments : EvidenceArguments} (fits : byteLen arguments.unitId.asStr < 2 ^ 64) :
    arguments.preimage = bigEndian 4 claimEvidenceSchemaVersion ++ (sized (encode arguments.manifest.asStr) ++
      ([arguments.status.code] ++ (bigEndian 4 arguments.confidencePpm ++ (sized (encode arguments.unitId.asStr) ++
        (sized (encode arguments.textDigest.asStr) ++ (bigEndian 8 arguments.textBytes ++ counted claimBytes arguments.claims)))))) := by
  have unit (bytes : Bytes) : appendPart bytes (encode arguments.unitId.asStr) = bytes ++ sized (encode arguments.unitId.asStr) :=
    appendPart_eq (by simpa using fits) bytes
  simp [preimage, evidencePreimage, foldl_appendClaim, appendPart_digest, unit, toBeBytes_eq_bigEndian, counted]

end EvidenceArguments

/-- A claim whose spans end within the address space. -/
def SpansFit (claim : ClaimEvidence) : Prop := ∀ span ∈ claim.evidenceSpans, span.stop < 2 ^ 64

theorem selfDelimiting_spanBytes : SelfDelimiting (fun span : SourceSpan => span.stop < 2 ^ 64) spanBytes := by
  rintro ⟨start, stop, ordered⟩ ⟨otherStart, otherStop, otherOrdered⟩ fits alsoFits rest more same
  simp only [spanBytes, append_assoc] at same fits alsoFits
  obtain ⟨starts, same⟩ := SelfDelimiting.bigEndian 8 (by omega) (by omega) same
  obtain ⟨stops, follows⟩ := SelfDelimiting.bigEndian 8 fits alsoFits same
  exact ⟨by simp only [starts, stops], follows⟩

theorem selfDelimiting_flagBytes : SelfDelimiting (fun _ => True) flagBytes :=
  SelfDelimiting.byte fun left right => by cases left <;> cases right <;> simp

theorem ClaimPolarity.code_injective : Function.Injective ClaimPolarity.code := by
  intro left right
  cases left <;> cases right <;> simp [code]

theorem ClaimModality.code_injective : Function.Injective ClaimModality.code := by
  intro left right
  cases left <;> cases right <;> simp [code]

theorem ClaimExtractionStatus.code_injective : Function.Injective ClaimExtractionStatus.code := by
  intro left right
  cases left <;> cases right <;> simp [code]

theorem selfDelimiting_claimBytes : SelfDelimiting SpansFit claimBytes := by
  intro claim other fits alsoFits rest more same
  have short (claim : ClaimEvidence) : claim.evidenceSpans.length < 2 ^ 64 := lt_of_le_of_lt claim.spansCounted.2 (by decide)
  have confident (claim : ClaimEvidence) : claim.confidencePpm < 256 ^ 4 := lt_of_le_of_lt claim.confidenceBounded (by decide)
  simp only [claimBytes, append_assoc] at same
  obtain ⟨claimId, same⟩ := Digest.selfDelimiting trivial trivial same
  obtain ⟨subjectId, same⟩ := Digest.selfDelimiting.optional (fun _ _ => trivial) (fun _ _ => trivial) same
  obtain ⟨predicateId, same⟩ := Digest.selfDelimiting trivial trivial same
  obtain ⟨objectId, same⟩ := Digest.selfDelimiting.optional (fun _ _ => trivial) (fun _ _ => trivial) same
  obtain ⟨polarity, same⟩ := SelfDelimiting.byte ClaimPolarity.code_injective trivial trivial same
  obtain ⟨modality, same⟩ := SelfDelimiting.byte ClaimModality.code_injective trivial trivial same
  obtain ⟨conditions, same⟩ := SelfDelimiting.bigEndian 2 claim.conditionCount.toNat_lt other.conditionCount.toNat_lt same
  obtain ⟨attributed, same⟩ := selfDelimiting_flagBytes trivial trivial same
  obtain ⟨confidence, same⟩ := SelfDelimiting.bigEndian 4 (confident claim) (confident other) same
  obtain ⟨spans, follows⟩ := selfDelimiting_spanBytes.counted ⟨short claim, fits⟩ ⟨short other, alsoFits⟩ same
  refine ⟨?_, follows⟩
  cases claim
  cases other
  simp_all [UInt16.toNat_inj]

/-- The hashed bytes determine every argument. -/
theorem EvidenceArguments.preimage_injective {first second : EvidenceArguments} (fits : first.Representable)
    (alsoFits : second.Representable) (same : first.preimage = second.preimage) : first = second := by
  rw [preimage_eq fits.unit, preimage_eq alsoFits.unit] at same
  have same := append_cancel_left same
  obtain ⟨manifest, same⟩ := Digest.selfDelimiting trivial trivial same
  obtain ⟨status, same⟩ := SelfDelimiting.byte ClaimExtractionStatus.code_injective trivial trivial same
  obtain ⟨threshold, same⟩ := SelfDelimiting.bigEndian 4 fits.threshold alsoFits.threshold same
  obtain ⟨unit, same⟩ := SelfDelimiting.sizedText fits.unit alsoFits.unit same
  obtain ⟨textDigest, same⟩ := Digest.selfDelimiting trivial trivial same
  obtain ⟨textBytes, same⟩ := SelfDelimiting.bigEndian 8 fits.text alsoFits.text same
  have claims : first.claims = second.claims :=
    selfDelimiting_claimBytes.counted.injective ⟨fits.count, fits.spans⟩ ⟨alsoFits.count, alsoFits.spans⟩ same
  obtain ⟨_, _, _, ⟨_⟩, _, _, _⟩ := first
  obtain ⟨_, _, _, ⟨_⟩, _, _, _⟩ := second
  simp_all

namespace SourceSpan

instance : Std.Total keyLe := ⟨fun left right => by unfold keyLe; omega⟩

instance : IsTrans SourceSpan keyLe := ⟨fun _ _ _ first second => by unfold keyLe at *; omega⟩

theorem keyLe_antisymm {left right : SourceSpan} (first : keyLe left right) (second : keyLe right left) : left = right := by
  obtain ⟨start, stop, ordered⟩ := left
  obtain ⟨otherStart, otherStop, otherOrdered⟩ := right
  simp only [keyLe, mk.injEq] at *
  omega

/-- Whatever way they were sorted, the spans stand in one order: a key is a whole span. -/
theorem sorted_unique {spans sorted : List SourceSpan} (same : sorted.Perm spans) (ordered : sorted.Pairwise keyLe) :
    sorted = spans.insertionSort keyLe := by
  have perm := same.trans (perm_insertionSort keyLe spans).symm
  exact perm.eq_of_pairwise (fun _ _ _ _ => keyLe_antisymm) ordered (pairwise_insertionSort keyLe spans)

end SourceSpan

theorem ClaimEvidence.fromCanonical_perm (claimId : Digest) (subjectId : Option Digest) (predicateId : Digest) (objectId : Option Digest)
    (polarity : ClaimPolarity) (modality : ClaimModality) (conditionCount : UInt16) (attributed : Bool) {spans others : List SourceSpan}
    (same : spans.Perm others) (confidencePpm : Nat) :
    fromCanonical claimId subjectId predicateId objectId polarity modality conditionCount attributed spans confidencePpm =
      fromCanonical claimId subjectId predicateId objectId polarity modality conditionCount attributed others confidencePpm := by
  have sorted : spans.insertionSort keyLe = others.insertionSort keyLe :=
    sorted_unique ((perm_insertionSort _ spans).trans same) (pairwise_insertionSort _ spans)
  have counted : (spans = [] ∨ maxEvidenceSpansPerClaim < spans.length) ↔ (others = [] ∨ maxEvidenceSpansPerClaim < others.length) := by
    rw [same.length_eq, ← length_eq_zero_iff, ← length_eq_zero_iff, same.length_eq]
  have solid : spans.any isEmpty = true ↔ others.any isEmpty = true := by rw [same.any_eq]
  have distinct : adjacentRepeat (spans.insertionSort keyLe) = true ↔
      adjacentRepeat (others.insertionSort keyLe) = true := by rw [sorted]
  simp only [fromCanonical]
  by_cases confident : claimConfidencePartsPerMillion < confidencePpm
  · rw [dif_pos confident, dif_pos confident]
  rw [dif_neg confident, dif_neg confident]
  by_cases uncounted : spans = [] ∨ maxEvidenceSpansPerClaim < spans.length
  · rw [dif_pos uncounted, dif_pos (counted.mp uncounted)]
  rw [dif_neg uncounted, dif_neg (fun other => uncounted (counted.mpr other))]
  by_cases empty : spans.any isEmpty = true
  · rw [dif_pos empty, dif_pos (solid.mp empty)]
  rw [dif_neg empty, dif_neg (fun other => empty (solid.mpr other))]
  by_cases repeated : adjacentRepeat (spans.insertionSort keyLe) = true
  · rw [dif_pos repeated, dif_pos (distinct.mp repeated)]
  rw [dif_neg repeated, dif_neg (fun other => repeated (distinct.mpr other))]
  simp only [sorted]

namespace ClaimEvidenceSet

/-- Claims in identity order without a repeated identity are strictly increasing. -/
theorem strictly_of_checked {text : Text} {sorted : List ClaimEvidence} (ordered : sorted.Pairwise idLe)
    (checked : checkClaims text [] sorted = .ok ()) : sorted.Pairwise fun left right => left.claimId.asStr < right.claimId.asStr :=
  (ordered.and (checkClaims_distinct checked).2).imp fun below => lt_of_le_of_ne below.1 fun same => below.2 (Digest.ext same)

theorem strictly_unique {first second : List ClaimEvidence} (same : first.Perm second)
    (ordered : first.Pairwise fun left right => left.claimId.asStr < right.claimId.asStr)
    (alsoOrdered : second.Pairwise fun left right => left.claimId.asStr < right.claimId.asStr) : first = second :=
  same.eq_of_pairwise (fun _ _ _ _ below above => absurd below (lt_asymm above)) ordered alsoOrdered

/-- Whatever way they were sorted, claims that pass the checks stand in one order: an unstable sort has
nothing to choose between. -/
theorem sorted_unique {text : Text} {claims sorted : List ClaimEvidence} (same : sorted.Perm claims) (ordered : sorted.Pairwise idLe)
    (checked : checkClaims text [] sorted = .ok ()) : sorted = claims.insertionSort idLe := by
  have perm := same.trans (perm_insertionSort idLe claims).symm
  have strict := strictly_of_checked ordered checked
  refine perm.eq_of_pairwise ?_ ordered (pairwise_insertionSort idLe claims)
  intro left right inside _ below above
  have equal : left.claimId.asStr = right.claimId.asStr := le_antisymm below above
  have member : right ∈ sorted := perm.mem_iff.mpr ‹_›
  have distinct : (sorted.map (·.claimId.asStr)).Nodup := pairwise_map.mpr (strict.imp fun below => ne_of_lt below)
  exact inj_on_of_nodup_map distinct inside member equal

/-- What an accepted set is made of. -/
structure BuiltFrom (extractorId extractorVersion : Text) (extractorManifestDigest : Digest) (extractionStatus : ClaimExtractionStatus)
    (minimumConfidencePpm : Nat) (unitId : RewriteUnitId) (text : Text) (claims : List ClaimEvidence) (set : ClaimEvidenceSet) : Prop where
  schemaVersion : set.schemaVersion = claimEvidenceSchemaVersion
  extractorId : set.extractorId = extractorId
  extractorVersion : set.extractorVersion = extractorVersion
  extractorManifestDigest : set.extractorManifestDigest = extractorManifestDigest
  extractionStatus : set.extractionStatus = extractionStatus
  minimumConfidencePpm : set.minimumConfidencePpm = minimumConfidencePpm
  unitId : set.unitId = unitId
  textDigest : set.textDigest = Digest.sha256 (encode text)
  textBytes : set.textBytes = byteLen text
  evidenceDigest : set.evidenceDigest = Retonr.evidenceDigest set.extractorManifestDigest set.extractionStatus
    set.minimumConfidencePpm set.unitId set.textDigest set.textBytes set.claims
  claims : set.claims = claims.insertionSort idLe

theorem builtFrom_of_new {extractorId extractorVersion : Text} {extractorManifestDigest : Digest} {extractionStatus : ClaimExtractionStatus}
    {minimumConfidencePpm : Nat} {unitId : RewriteUnitId} {text : Text} {claims : List ClaimEvidence} {set : ClaimEvidenceSet}
    (accepted : new extractorId extractorVersion extractorManifestDigest extractionStatus minimumConfidencePpm unitId text claims = .ok set) :
    BuiltFrom extractorId extractorVersion extractorManifestDigest extractionStatus minimumConfidencePpm unitId text claims set := by
  simp only [new] at accepted
  split at accepted
  · cases accepted
  split at accepted
  · cases accepted
  split at accepted
  · cases accepted
  split at accepted
  · cases accepted
  · cases accepted
    constructor <;> rfl

/-- The order in which claims are supplied leaves no trace in the set. -/
theorem new_perm {extractorId extractorVersion : Text} {extractorManifestDigest : Digest} {extractionStatus : ClaimExtractionStatus}
    {minimumConfidencePpm : Nat} {unitId : RewriteUnitId} {text : Text} {claims others : List ClaimEvidence} {set other : ClaimEvidenceSet}
    (same : claims.Perm others)
    (accepted : new extractorId extractorVersion extractorManifestDigest extractionStatus minimumConfidencePpm unitId text claims = .ok set)
    (alsoAccepted : new extractorId extractorVersion extractorManifestDigest extractionStatus minimumConfidencePpm unitId text others = .ok other) :
    set = other := by
  obtain ⟨a₁, a₂, a₃, a₄, a₅, a₆, a₇, a₈, a₉, digest, kept⟩ := builtFrom_of_new accepted
  obtain ⟨b₁, b₂, b₃, b₄, b₅, b₆, b₇, b₈, b₉, otherDigest, otherKept⟩ := builtFrom_of_new alsoAccepted
  have perm : (claims.insertionSort idLe).Perm (others.insertionSort idLe) :=
    ((perm_insertionSort idLe claims).trans same).trans (perm_insertionSort idLe others).symm
  have equal : claims.insertionSort idLe = others.insertionSort idLe :=
    strictly_unique perm (kept ▸ set.claimsOrdered) (otherKept ▸ other.claimsOrdered)
  cases set
  cases other
  simp_all

end ClaimEvidenceSet

/-- The hashed bytes determine every argument, claim by claim and field by field; and a set is the same
whatever order its claims and their spans came in and whatever sort put them in order. -/
theorem claim_evidence_is_canonical :
    (∀ first second : EvidenceArguments, first.Representable → second.Representable → first.preimage = second.preimage → first = second) ∧
    (∀ (claimId : Digest) (subjectId : Option Digest) (predicateId : Digest) (objectId : Option Digest) (polarity : ClaimPolarity)
      (modality : ClaimModality) (conditionCount : UInt16) (attributed : Bool) (spans others : List SourceSpan) (confidencePpm : Nat),
      spans.Perm others →
      ClaimEvidence.fromCanonical claimId subjectId predicateId objectId polarity modality conditionCount attributed spans confidencePpm =
        ClaimEvidence.fromCanonical claimId subjectId predicateId objectId polarity modality conditionCount attributed others confidencePpm) ∧
    (∀ (extractorId extractorVersion : Text) (manifest : Digest) (status : ClaimExtractionStatus) (minimumConfidencePpm : Nat)
      (unitId : RewriteUnitId) (text : Text) (claims others : List ClaimEvidence) (set other : ClaimEvidenceSet), claims.Perm others →
      ClaimEvidenceSet.new extractorId extractorVersion manifest status minimumConfidencePpm unitId text claims = .ok set →
      ClaimEvidenceSet.new extractorId extractorVersion manifest status minimumConfidencePpm unitId text others = .ok other → set = other) ∧
    (∀ spans sorted : List SourceSpan, sorted.Perm spans → sorted.Pairwise keyLe → sorted = spans.insertionSort keyLe) ∧
    (∀ (text : Text) (claims sorted : List ClaimEvidence), sorted.Perm claims → sorted.Pairwise ClaimEvidenceSet.idLe →
      ClaimEvidenceSet.checkClaims text [] sorted = .ok () → sorted = claims.insertionSort ClaimEvidenceSet.idLe) := by
  refine ⟨fun _ _ fits alsoFits same => EvidenceArguments.preimage_injective fits alsoFits same, ?_, ?_, ?_, ?_⟩
  · intro claimId subjectId predicateId objectId polarity modality conditionCount attributed spans others confidencePpm same
    exact ClaimEvidence.fromCanonical_perm claimId subjectId predicateId objectId polarity modality conditionCount attributed same confidencePpm
  · intro _ _ _ _ _ _ _ _ _ _ _ same accepted alsoAccepted
    exact ClaimEvidenceSet.new_perm same accepted alsoAccepted
  · intro _ _ same ordered
    exact sorted_unique same ordered
  · intro _ _ _ same ordered checked
    exact ClaimEvidenceSet.sorted_unique same ordered checked

/-- A complete extraction from a two-byte text, without claims. -/
def emptyArguments : EvidenceArguments where
  manifest := ⟨List.replicate 64 'a', Eq.refl true⟩
  status := .complete
  confidencePpm := 900000
  unitId := ⟨['u']⟩
  textDigest := ⟨List.replicate 64 'b', Eq.refl true⟩
  textBytes := 2
  claims := []

theorem claim_evidence_is_canonical_statuses : emptyArguments.preimage ≠ { emptyArguments with status := .failed }.preimage := by
  have fits : emptyArguments.Representable := ⟨by decide, by decide, by decide, by decide, by decide⟩
  have alsoFits : { emptyArguments with status := .failed }.Representable := ⟨by decide, by decide, by decide, by decide, by decide⟩
  intro same
  have equal := claim_evidence_is_canonical.1 _ _ fits alsoFits same
  cases congrArg EvidenceArguments.status equal

end Retonr
