import Retonr.RuntimeIsolation.ManagedInput

/-! The handover of managed runtime inputs is exact: what a sink retained arrives as it was sent, and
nothing else passes for it. -/

namespace Retonr.RuntimeIsolation
open Text Framing Slice RuntimeInput List Retonr.Except

namespace ManagedInput

/-- Aliases in strictly increasing order. -/
def Follows (member next : RetainedRuntimeInputMember) : Prop :=
  encode member.declaration.relativeAlias < encode next.declaration.relativeAlias

def totalOf (declarations : List RetainedRuntimeInputDeclaration) : Nat := (declarations.map fun declaration => declaration.expectedBytes.toNat).sum

/-- A declaration as the receiver wants its fields, apart from the object it names. -/
structure Declared (declaration : RetainedRuntimeInputDeclaration) : Prop where
  named : validAlias declaration.relativeAlias = true
  nonempty : declaration.expectedBytes ≠ 0
  bounded : declaration.expectedBytes.toNat ≤ maximumMemberBytes

/-- What holds of the members of a sink at any time. -/
structure Canonical (members : List RetainedRuntimeInputMember) : Prop where
  few : members.length ≤ maximumManagedRuntimeInputFiles
  ordered : members.IsChain Follows
  declared : ∀ member ∈ members, Declared member.declaration
  described : ∀ member ∈ members, validateDescriptor member.declaration member.file = .ok ()
  bounded : totalOf (members.map (·.declaration)) ≤ maximumManagedRuntimeInputBytes

section Sink

variable {sink next : RetainedRuntimeInputSink} {offer : Offer}

/-- A file that passed for the sink passes again for the declaration made of it. -/
theorem validateDescriptor_of_validateFile {file : RuntimeFile} {digest : Digest} {bytes : UInt64} {identity : RuntimeInputObjectIdentity}
    (validated : validateFile file digest bytes = .ok identity) (relativeAlias : Text) :
    validateDescriptor ⟨relativeAlias, digest, bytes, identity⟩ file = .ok () := by
  unfold validateFile at validated
  unfold validateDescriptor
  cases metadata : file.metadata with
  | none => simp [metadata] at validated
  | some metadata =>
    cases opened : file.flags with
    | none => simp_all
    | some flags =>
      simp only [*, bind_eq_ok, require_eq_ok, exists_unit, Except.ok.injEq] at validated
      obtain ⟨⟨regular, links, length, closed⟩, found, read, rfl, rfl⟩ := validated
      simp [regular, links, length, closed, read]

theorem Canonical.retain (canonical : Canonical sink.members) (counted : sink.totalBytes = totalOf (sink.members.map (·.declaration)))
    (retained : sink.retain offer = .ok next) : Canonical next.members ∧ next.totalBytes = totalOf (next.members.map (·.declaration)) := by
  simp only [RetainedRuntimeInputSink.retain, bind_eq_ok, require_eq_ok, exists_unit, Except.ok.injEq] at retained
  obtain ⟨⟨named, after, room, nonempty, small⟩, ⟨-, total⟩, -, identity, validated, rfl⟩ := retained
  have few := canonical.few
  let added : RetainedRuntimeInputMember := ⟨⟨offer.relativeAlias, offer.expectedDigest, offer.expectedBytes, identity⟩, offer.file⟩
  have sum : sink.totalBytes + offer.expectedBytes.toNat = totalOf ((sink.members ++ [added]).map (·.declaration)) := by
    simp [totalOf, counted, added]
  refine ⟨⟨?_, ?_, forall_mem_append.mpr ⟨canonical.declared, forall_mem_singleton.mpr ⟨named, nonempty, small⟩⟩,
    forall_mem_append.mpr ⟨canonical.described, forall_mem_singleton.mpr (validateDescriptor_of_validateFile validated _)⟩, sum ▸ total⟩, sum⟩
  · simp only [length_append, length_singleton]
    omega
  · rw [isChain_append]
    exact ⟨canonical.ordered, isChain_singleton _, fun member last other only => by
      simp only [List.head?_cons, Option.mem_some_iff] at only
      subst only
      exact after member last⟩

/-- Whatever is offered, and whatever is refused, the members stay canonical. -/
theorem canonical_offers (offers : List Offer) (canonical : Canonical sink.members)
    (counted : sink.totalBytes = totalOf (sink.members.map (·.declaration))) :
    Canonical (offers.foldl RetainedRuntimeInputSink.offered sink).members := by
  induction offers generalizing sink with
  | nil => exact canonical
  | cons offer offers ih =>
    rw [foldl_cons]
    cases retained : sink.retain offer with
    | error =>
      have same : sink.offered offer = sink := by simp only [RetainedRuntimeInputSink.offered, retained]
      rw [same]
      exact ih canonical counted
    | ok next =>
      have moved : sink.offered offer = next := by simp only [RetainedRuntimeInputSink.offered, retained]
      rw [moved]
      obtain ⟨kept, sum⟩ := canonical.retain counted retained
      exact ih kept sum

theorem canonical_fromSource {cancelled : Bool} {offers : List Offer} {transfer : Except RuntimeInputError Unit} {tree : RetainedRuntimeInputTree}
    (built : RetainedRuntimeInputTree.fromSource cancelled offers transfer = .ok tree) : Canonical tree.members ∧ tree.members ≠ [] := by
  simp only [RetainedRuntimeInputTree.fromSource, bind_eq_ok, require_eq_ok, exists_unit, Except.ok.injEq] at built
  obtain ⟨-, -, filled, rfl⟩ := built
  refine ⟨canonical_offers offers ⟨?_, ?_, ?_, ?_, ?_⟩ rfl, filled⟩
  · exact Nat.zero_le _
  · exact isChain_nil
  · rintro _ ⟨⟩
  · rintro _ ⟨⟩
  · exact Nat.zero_le _

end Sink

section Header

theorem foldlM_addBytes {declarations : List RetainedRuntimeInputDeclaration} {total : Nat}
    (fits : total + totalOf declarations ≤ maximumManagedRuntimeInputBytes) :
    declarations.foldlM addBytes total = .ok (total + totalOf declarations) := by
  induction declarations generalizing total with
  | nil => rfl
  | cons declaration declarations ih =>
    have split : totalOf (declaration :: declarations) = declaration.expectedBytes.toNat + totalOf declarations := by simp [totalOf]
    rw [split] at fits ⊢
    have bound : maximumManagedRuntimeInputBytes < 2 ^ 64 := by decide
    have step : addBytes total declaration = .ok (total + declaration.expectedBytes.toNat) := by
      simp only [addBytes, bind_eq_ok, require_eq_ok, exists_unit, and_true]
      omega
    rw [foldlM_cons, step, ok_bind, ih (by omega), Nat.add_assoc]

theorem parseDigest_eq_ok {bytes : Bytes} {digest : Digest} : parseDigest bytes = .ok digest ↔ bytes = encode digest.asStr := by
  unfold parseDigest
  constructor
  · intro parsed
    obtain ⟨value, read, parsed⟩ := bind_eq_ok.mp parsed
    split at parsed
    next found =>
      cases parsed
      rw [text_eq_ok.mp read, Digest.fromSha256Hex_eq_some.mp found]
    next => cases parsed
  · rintro rfl
    rw [text_eq_ok.mpr rfl, ok_bind, Digest.fromSha256Hex_eq_some.mpr rfl]

theorem length_encode_digest (digest : Digest) : (encode digest.asStr).length = 64 := by rw [length_encode, digest.byteLen_asStr]

theorem decodeHeader_encodeHeader {sent : ManagedInputHeader} (few : sent.count ≤ maximumManagedRuntimeInputFiles)
    (bounded : sent.totalBytes ≤ maximumManagedRuntimeInputBytes) (filled : sent.count = 0 ↔ sent.totalBytes = 0) :
    decodeHeader (encodeHeader sent) = .ok sent := by
  have short : sent.count ≤ 64 := few
  have small : sent.totalBytes < 256 ^ 8 := lt_of_le_of_lt bounded (by decide)
  have digestWidth := length_encode_digest sent.layoutDigest
  have stands : Stands (encodeHeader sent) 0 (encodeHeader sent) := prefix_rfl
  obtain ⟨atVersion, stands⟩ := stands_append.mp stands
  obtain ⟨atCount, stands⟩ := stands_append.mp stands
  obtain ⟨atZeros, stands⟩ := stands_append.mp stands
  obtain ⟨atTotal, atDigest⟩ := stands_append.mp stands
  simp only [length_bigEndian, length_cons, length_nil, Nat.zero_add, Nat.reduceAdd] at atCount atZeros atTotal atDigest
  have countNat : bigEndianNat (bigEndian 2 (min sent.count (2 ^ 16 - 1))) = sent.count := by
    rw [Nat.min_eq_left (by omega)]
    exact nat_bigEndian (by omega)
  have totalNat : bigEndianNat (bigEndian 8 sent.totalBytes) = sent.totalBytes := nat_bigEndian small
  have length : (encodeHeader sent).length = managedInputHeaderBytes := by
    simp [encodeHeader, sent.layoutDigest.byteLen_asStr, managedInputHeaderBytes]
  rw [decodeHeader, mapError_eq_ok]
  simp only [readHeader, bind_eq_ok, require_eq_ok, exists_unit, Except.ok.injEq, parseDigest_eq_ok]
  refine ⟨length, _, rfl, rfl, 0, rfl, rfl, _, (range_eq_ok (by decide)).mpr ⟨rfl, atZeros⟩, rfl, _,
    (range_eq_ok (by decide)).mpr ⟨length_bigEndian _ _, atCount⟩, _, (range_eq_ok (by decide)).mpr ⟨length_bigEndian _ _, atTotal⟩, _,
    (range_eq_ok (by decide)).mpr ⟨digestWidth, atDigest⟩, _, rfl, ?_, ?_⟩
  · rw [countNat, totalNat]
    exact ⟨few, bounded, filled⟩
  · rw [countNat, totalNat]

end Header

section Declarations

variable {declaration : RetainedRuntimeInputDeclaration} {index : Nat} {payload : Bytes}

theorem Declared.byteLen_le (declared : Declared declaration) : byteLen declaration.relativeAlias ≤ maximumAliasBytes := by
  have named := declared.named
  simp only [validAlias, Bool.and_eq_true, Bool.not_eq_true', Bool.or_eq_false_iff, decide_eq_false_iff_not, Nat.not_lt] at named
  exact named.1.1.1.1.1.2

theorem Declared.alias_ne_nil (declared : Declared declaration) : declaration.relativeAlias ≠ [] := by
  intro empty
  have named := declared.named
  simp [empty, validAlias] at named

theorem fromWire_eq_ok {relativeAlias : Text} {digest : Digest} {bytes : UInt64} {identity : RuntimeInputObjectIdentity} :
    RetainedRuntimeInputDeclaration.fromWire relativeAlias digest bytes identity = .ok declaration ↔
      (Declared declaration ∧ declaration.identity.device ≠ 0 ∧ declaration.identity.inode ≠ 0) ∧
        declaration = ⟨relativeAlias, digest, bytes, identity⟩ := by
  simp only [RetainedRuntimeInputDeclaration.fromWire, bind_eq_ok, require_eq_ok, exists_unit, Except.ok.injEq]
  constructor
  · rintro ⟨⟨named, nonempty, bounded, device, inode⟩, rfl⟩
    exact ⟨⟨⟨named, nonempty, bounded⟩, device, inode⟩, rfl⟩
  · rintro ⟨⟨⟨named, nonempty, bounded⟩, device, inode⟩, rfl⟩
    exact ⟨⟨named, nonempty, bounded, device, inode⟩, rfl⟩

theorem declared_of_decodeDeclaration (decoded : decodeDeclaration payload index = .ok declaration) : Declared declaration := by
  obtain ⟨fields, -, checked⟩ := bind_eq_ok.mp decoded
  exact (fromWire_eq_ok.mp (mapError_eq_ok.mp checked)).1.1

theorem encodeDeclaration_ok (declared : Declared declaration) (small : index < 2 ^ 16) :
    ∃ payload, encodeDeclaration index declaration = .ok payload := by
  have short := declared.byteLen_le
  unfold maximumAliasBytes at short
  simp only [encodeDeclaration, bind_eq_ok, require_eq_ok, exists_unit, length_encode, Except.ok.injEq]
  exact ⟨_, small, by omega, rfl⟩

theorem readU64_eq_ok {offset : Nat} {value : UInt64} (stands : Stands payload offset (bigEndian 8 value.toNat)) :
    readU64 payload offset = .ok value := by
  have read : get payload offset (offset + 8) = .ok (bigEndian 8 value.toNat) := (get_eq_ok_iff_stands (by decide)).mpr ⟨length_bigEndian _ _, stands⟩
  rw [readU64, read, ok_bind, nat_bigEndian value.toNat_lt, UInt64.ofNat_toNat]

theorem readU16_eq_ok {offset value : Nat} (small : value < 2 ^ 16) (stands : Stands payload offset (bigEndian 2 value)) :
    readU16 payload offset = .ok value := by
  have read : get payload offset (offset + 2) = .ok (bigEndian 2 value) := (get_eq_ok_iff_stands (by decide)).mpr ⟨length_bigEndian _ _, stands⟩
  rw [readU16, read, ok_bind, nat_bigEndian small]

theorem decodeDeclaration_encodeDeclaration (declared : Declared declaration) (device : declaration.identity.device ≠ 0)
    (inode : declaration.identity.inode ≠ 0) (encoded : encodeDeclaration index declaration = .ok payload) :
    decodeDeclaration payload index = .ok declaration := by
  simp only [encodeDeclaration, bind_eq_ok, require_eq_ok, exists_unit, Except.ok.injEq] at encoded
  obtain ⟨small, short, shape⟩ := encoded
  have digestWidth := length_encode_digest declaration.expectedDigest
  have aliasFits : (encode declaration.relativeAlias).length ≤ maximumAliasBytes := by
    rw [length_encode]
    exact declared.byteLen_le
  have aliasFilled : (encode declaration.relativeAlias).length ≠ 0 := by
    rw [length_encode]
    exact fun empty => declared.alias_ne_nil (eq_nil_of_byteLen_eq_zero empty)
  have length : payload.length = declarationFixedBytes + (encode declaration.relativeAlias).length := by
    rw [← shape]
    simp only [length_append, length_bigEndian, digestWidth, length_cons, length_nil, declarationFixedBytes]
    omega
  have stands : Stands payload 0 payload := prefix_rfl
  nth_rewrite 2 [← shape] at stands
  obtain ⟨atVersion, stands⟩ := stands_append.mp stands
  obtain ⟨atIndex, stands⟩ := stands_append.mp stands
  obtain ⟨atLength, stands⟩ := stands_append.mp stands
  obtain ⟨atZeros, stands⟩ := stands_append.mp stands
  obtain ⟨atBytes, stands⟩ := stands_append.mp stands
  obtain ⟨atDevice, stands⟩ := stands_append.mp stands
  obtain ⟨atInode, stands⟩ := stands_append.mp stands
  obtain ⟨atDigest, atAlias⟩ := stands_append.mp stands
  simp only [length_bigEndian, length_cons, length_nil, digestWidth, Nat.zero_add, Nat.reduceAdd]
    at atIndex atLength atZeros atBytes atDevice atInode atDigest atAlias
  have read : readDeclaration payload index = .ok declaration := by
    simp only [readDeclaration, bind_eq_ok, require_eq_ok, exists_unit, Except.ok.injEq, parseDigest_eq_ok, text_eq_ok]
    refine ⟨?_, managedInputDeclarationVersion, ?_, rfl, 0, ?_, rfl, _, (range_eq_ok (by decide)).mpr ⟨rfl, atZeros⟩, rfl, index,
      readU16_eq_ok small atIndex, _, readU16_eq_ok short atLength, ⟨rfl, aliasFilled, aliasFits, ?_⟩, _, readU64_eq_ok atBytes, _,
      readU64_eq_ok atDevice, _, readU64_eq_ok atInode, _, (range_eq_ok (by decide)).mpr ⟨digestWidth, atDigest⟩, _, rfl, _, indexFrom_of_stands atAlias length, _, rfl, rfl⟩
    · omega
    · rw [← shape]
      rfl
    · rw [← shape]
      rfl
    · unfold maximumAliasBytes at aliasFits
      unfold declarationFixedBytes usizeLimit at *
      omega
  rw [decodeDeclaration, read, bind_eq_ok]
  exact ⟨declaration, rfl, mapError_eq_ok.mpr (fromWire_eq_ok.mpr ⟨⟨declared, device, inode⟩, rfl⟩)⟩

end Declarations

section Exchange

/-- The two checks a receiver makes against the member before let increasing aliases through. -/
def Admits (follows : Option RetainedRuntimeInputMember → RetainedRuntimeInputDeclaration → Bool) : Prop :=
  ∀ last (member : RetainedRuntimeInputMember), (∀ before ∈ last, Follows before member) → follows last member.declaration = true

theorem hasDisorder_eq_false {members : List RetainedRuntimeInputMember} (ordered : members.IsChain Follows) :
    hasDisorder (members.map (·.declaration)) = false := by
  induction ordered with
  | nil => rfl
  | singleton member => rfl
  | cons_cons here _ ih =>
    simp only [map_cons, hasDisorder, Bool.or_eq_false_iff, decide_eq_false_iff_not]
    exact ⟨fun below => below here, ih⟩

variable {members : List RetainedRuntimeInputMember} {sent : ManagedInputHeader}

theorem header_of_canonical (canonical : Canonical members) : header (members.map (·.declaration)) =
    .ok ⟨members.length, totalOf (members.map (·.declaration)), runtimeInputLayoutDigest (members.map (·.declaration))⟩ := by
  have total : (members.map (·.declaration)).foldlM addBytes 0 = .ok (0 + totalOf (members.map (·.declaration))) :=
    foldlM_addBytes (by rw [Nat.zero_add]; exact canonical.bounded)
  rw [Nat.zero_add] at total
  simp only [header, bind_eq_ok, require_eq_ok, exists_unit, length_map]
  exact ⟨canonical.few, _, total, rfl⟩

variable {index : Nat}

theorem sendEach_ok (declared : ∀ member ∈ members, Declared member.declaration) (small : index + members.length ≤ 2 ^ 16) :
    ∃ messages, sendEach index members = .ok messages := by
  induction members generalizing index with
  | nil => exact ⟨[], rfl⟩
  | cons member members ih =>
    rw [length_cons] at small
    obtain ⟨first, others⟩ := forall_mem_cons.mp declared
    obtain ⟨payload, encoded⟩ := encodeDeclaration_ok first (show index < 2 ^ 16 by omega)
    obtain ⟨messages, sent⟩ := ih others (show index + 1 + members.length ≤ 2 ^ 16 by omega)
    exact ⟨_, by rw [sendEach, encoded, ok_bind, sent, ok_bind]⟩

variable {follows : Option RetainedRuntimeInputMember → RetainedRuntimeInputDeclaration → Bool} {messages : List InputMessage}

/-- Every message arrives as the member it was made from. -/
theorem receiveEach_sendEach (admits : Admits follows) {last : Option RetainedRuntimeInputMember}
    (ordered : (last.toList ++ members).IsChain Follows) (declared : ∀ member ∈ members, Declared member.declaration)
    (described : ∀ member ∈ members, validateDescriptor member.declaration member.file = .ok ())
    (identified : ∀ member ∈ members, member.declaration.identity.device ≠ 0 ∧ member.declaration.identity.inode ≠ 0)
    (delivered : sendEach index members = .ok messages) : receiveEach follows members.length index last messages = .ok members := by
  induction members generalizing index last messages with
  | nil => rfl
  | cons member members ih =>
    obtain ⟨payload, encoded, delivered⟩ := bind_eq_ok.mp delivered
    obtain ⟨later, rest, delivered⟩ := bind_eq_ok.mp delivered
    cases delivered
    obtain ⟨firstDeclared, declared⟩ := forall_mem_cons.mp declared
    obtain ⟨firstDescribed, described⟩ := forall_mem_cons.mp described
    obtain ⟨⟨device, inode⟩, identified⟩ := forall_mem_cons.mp identified
    have chained : (member :: members).IsChain Follows ∧ ∀ before ∈ last, Follows before member := by
      cases last with
      | none => exact ⟨ordered, nofun⟩
      | some before =>
        obtain ⟨here, there⟩ := isChain_cons_cons.mp ordered
        exact ⟨there, fun _ same => Option.mem_some_iff.mp same ▸ here⟩
    have others : receiveEach follows members.length (index + 1) (some member) later = .ok members :=
      ih chained.1 declared described identified rest
    have decoded := decodeDeclaration_encodeDeclaration firstDeclared device inode encoded
    simp only [length_cons, receiveEach, bind_eq_ok, require_eq_ok, exists_unit, Except.ok.injEq]
    exact ⟨trivial, _, decoded, admits last member chained.2, firstDescribed, members, others, rfl⟩

theorem receiveInputs_sendEach (admits : Admits follows) (canonical : Canonical members)
    (identified : ∀ member ∈ members, member.declaration.identity.device ≠ 0 ∧ member.declaration.identity.inode ≠ 0)
    (announced : header (members.map (·.declaration)) = .ok sent) (delivered : sendEach 0 members = .ok messages) :
    receiveInputs follows sent messages = .ok members := by
  have same := header_of_canonical canonical
  rw [announced] at same
  cases same
  have received : receiveEach follows members.length 0 none messages = .ok members :=
    receiveEach_sendEach admits canonical.ordered canonical.declared canonical.described identified delivered
  simp only [receiveInputs, received, ok_bind, validateComplete, hasDisorder_eq_false canonical.ordered, announced,
    bind_eq_ok, require_eq_ok, exists_unit, true_and]

theorem declared_of_receiveEach {count : Nat}
    {last : Option RetainedRuntimeInputMember} (received : receiveEach follows count index last messages = .ok members) :
    ∀ member ∈ members, Declared member.declaration := by
  induction count generalizing index last messages members with
  | zero =>
    cases received
    exact nofun
  | succ count ih =>
    cases messages with
    | nil => cases received
    | cons message messages =>
      simp only [receiveEach, bind_eq_ok, require_eq_ok, exists_unit, Except.ok.injEq] at received
      obtain ⟨-, declaration, decoded, -, -, others, rest, rfl⟩ := received
      exact forall_mem_cons.mpr ⟨declared_of_decodeDeclaration decoded, ih rest⟩

end Exchange

section Layout

def declarationBytes (declaration : RetainedRuntimeInputDeclaration) : Bytes :=
  sized (encode declaration.relativeAlias) ++ (sized (encode declaration.expectedDigest.asStr) ++ (bigEndian 8 declaration.expectedBytes.toNat ++
    (bigEndian 8 declaration.identity.device.toNat ++ bigEndian 8 declaration.identity.inode.toNat)))

theorem selfDelimiting_declarationBytes : SelfDelimiting Declared declarationBytes := by
  have fields := (SelfDelimiting.sizedText.pair (Digest.selfDelimiting.pair (SelfDelimiting.uint64.pair
    (SelfDelimiting.uint64.pair SelfDelimiting.uint64)))).comap
    (fun declaration : RetainedRuntimeInputDeclaration => (declaration.relativeAlias, declaration.expectedDigest, declaration.expectedBytes,
      declaration.identity.device, declaration.identity.inode)) (by
      rintro ⟨_, _, _, _, _⟩ ⟨_, _, _, _, _⟩ same
      simp_all)
  have small : ∀ {declaration : RetainedRuntimeInputDeclaration}, Declared declaration → byteLen declaration.relativeAlias < 2 ^ 64 :=
    fun declared => lt_of_le_of_lt declared.byteLen_le (by decide)
  intro declaration other declared alsoDeclared
  exact fields ⟨small declared, trivial, trivial, trivial, trivial⟩ ⟨small alsoDeclared, trivial, trivial, trivial, trivial⟩

theorem bytes_foldl_pushDeclaration (declarations : List RetainedRuntimeInputDeclaration) (digest : RedactedDigestBuilder) :
    (declarations.foldl pushDeclaration digest).bytes = digest.bytes ++ declarations.flatMap declarationBytes := by
  induction declarations generalizing digest with
  | nil => simp
  | cons declaration declarations ih =>
    rw [foldl_cons, ih, flatMap_cons]
    simp only [pushDeclaration, RedactedDigestBuilder.pushBytes, RedactedDigestBuilder.pushU64, declarationBytes, append_assoc]

theorem layoutBuilder_injective {declarations others : List RetainedRuntimeInputDeclaration} (count : declarations.length = others.length)
    (first : ∀ declaration ∈ declarations, Declared declaration) (second : ∀ declaration ∈ others, Declared declaration)
    (same : (layoutBuilder declarations).bytes = (layoutBuilder others).bytes) : declarations = others := by
  simp only [layoutBuilder, bytes_foldl_pushDeclaration, count] at same
  have written : declarations.flatMap declarationBytes ++ [] = others.flatMap declarationBytes ++ [] := by rw [append_cancel_left same]
  exact (selfDelimiting_declarationBytes.flatMap first second count written).1

end Layout

/-- What a receiver accepts in full under a header is what the header was made from. -/
theorem received_eq_of_header {follows : Option RetainedRuntimeInputMember → RetainedRuntimeInputDeclaration → Bool} {sent : ManagedInputHeader}
    {members received : List RetainedRuntimeInputMember} {messages : List InputMessage} (canonical : Canonical members)
    (announced : header (members.map (·.declaration)) = .ok sent) (accepted : receiveInputs follows sent messages = .ok received)
    (separated : Separated (layoutBuilder (received.map (·.declaration))).bytes (layoutBuilder (members.map (·.declaration))).bytes) :
    received.map (·.declaration) = members.map (·.declaration) := by
  obtain ⟨inputs, arrived, accepted⟩ := bind_eq_ok.mp accepted
  obtain ⟨_, complete, accepted⟩ := bind_eq_ok.mp accepted
  cases accepted
  simp only [validateComplete, header, bind_eq_ok, require_eq_ok, exists_unit, Except.ok.injEq] at complete announced
  obtain ⟨-, _, ⟨-, total, -, rfl⟩, rfl⟩ := complete
  obtain ⟨-, otherTotal, -, same⟩ := announced
  obtain ⟨count, -, digest⟩ := ManagedInputHeader.mk.inj same
  refine layoutBuilder_injective count.symm ?_ ?_ (separated digest.symm)
  · exact forall_mem_map.mpr (declared_of_receiveEach arrived)
  · exact forall_mem_map.mpr canonical.declared

theorem admits_stage : Admits fun _ _ => true := fun _ _ _ => rfl

theorem admits_launch : Admits fun last declaration =>
    last.all fun member => encode member.declaration.relativeAlias < encode declaration.relativeAlias := by
  intro last member follows
  cases last with
  | none => rfl
  | some before => exact decide_eq_true (follows before rfl)

/-- The header and the messages of a retained tree are received as that tree by both receivers, and
whatever either of them accepts in full under that header declares the same inputs in the same order. -/
theorem handover_is_exact {cancelled : Bool} {offers : List Offer} {transfer : Except RuntimeInputError Unit} {tree : RetainedRuntimeInputTree}
    (built : RetainedRuntimeInputTree.fromSource cancelled offers transfer = .ok tree)
    (identified : ∀ member ∈ tree.members, member.declaration.identity.device ≠ 0 ∧ member.declaration.identity.inode ≠ 0) :
    ∃ sent messages, header (tree.members.map (·.declaration)) = .ok sent ∧ decodeHeader (encodeHeader sent) = .ok sent ∧
      sendEach 0 tree.members = .ok messages ∧
      receiveManagedLaunch sent messages = .ok tree.members ∧ receiveStageInputs sent messages = .ok tree.members ∧
      ∀ others received, receiveManagedLaunch sent others = .ok received ∨ receiveStageInputs sent others = .ok received →
        Separated (layoutBuilder (received.map (·.declaration))).bytes (layoutBuilder (tree.members.map (·.declaration))).bytes →
          received.map (·.declaration) = tree.members.map (·.declaration) := by
  obtain ⟨canonical, filled⟩ := canonical_fromSource built
  have announced := header_of_canonical canonical
  have few := canonical.few
  unfold maximumManagedRuntimeInputFiles at few
  obtain ⟨messages, delivered⟩ := sendEach_ok canonical.declared (show 0 + tree.members.length ≤ 2 ^ 16 by omega)
  refine ⟨_, messages, announced, decodeHeader_encodeHeader canonical.few canonical.bounded ?_, delivered,
    receiveInputs_sendEach admits_launch canonical identified announced delivered,
    receiveInputs_sendEach admits_stage canonical identified announced delivered, ?_⟩
  · obtain ⟨first, others, shape⟩ := exists_cons_of_ne_nil filled
    have positive : 0 < first.declaration.expectedBytes.toNat := by
      have nonempty := (canonical.declared first (by simp [shape])).nonempty
      exact Nat.pos_of_ne_zero fun zero => nonempty (UInt64.toNat_inj.mp zero)
    simp only [shape, totalOf, length_cons, map_cons, sum_cons]
    omega
  · rintro others received (accepted | accepted) separated
    · exact received_eq_of_header canonical announced accepted separated
    · exact received_eq_of_header canonical announced accepted separated

def sampleDigest : Digest := ⟨List.replicate 64 '0', Eq.refl true⟩

def sampleOffer : Offer := ⟨['m'], sampleDigest, 1, some ⟨true, 1, 1, 10, 20⟩, some false, fun _ => .ok sampleDigest⟩

theorem handover_is_exact_single : ∃ tree, RetainedRuntimeInputTree.fromSource false [sampleOffer] (.ok ()) = .ok tree ∧
    ∃ sent messages, header (tree.members.map (·.declaration)) = .ok sent ∧ receiveStageInputs sent messages = .ok tree.members := by
  have retained : ([sampleOffer].foldl RetainedRuntimeInputSink.offered ⟨[], 0, 0⟩).members =
      [⟨⟨['m'], sampleDigest, 1, 10, 20⟩, sampleOffer.file⟩] := rfl
  have built := show RetainedRuntimeInputTree.fromSource false [sampleOffer] (.ok ()) = .ok _ from rfl
  refine ⟨_, built, ?_⟩
  obtain ⟨sent, messages, announced, -, -, -, received, -⟩ := handover_is_exact built (by
    intro member inside
    obtain rfl := mem_singleton.mp (retained ▸ inside)
    decide)
  exact ⟨sent, messages, announced, received⟩

end ManagedInput

end Retonr.RuntimeIsolation
