import Retonr.Lib.Unicode
import Retonr.Model.ArtifactSetJson
import Retonr.Proofs.ArtifactSetPaths

/-! The canonical JSON of a manifest: it is written without escapes and needs none, it is short enough
for the reader, and the reader gives the manifest back. -/

namespace Retonr
open Text List Retonr.Except

/-- A printable ASCII character that JSON writes as it is. -/
def Plain (char : Char) : Prop := 0x20 ≤ char.toNat ∧ char.toNat ≤ 0x7e ∧ char ≠ '\x22' ∧ char ≠ '\\'

variable {char : Char}

theorem Plain.escape (plain : Plain char) : Json.escape char = [char] := by
  obtain ⟨visible, -, unquoted, unescaped⟩ := plain
  unfold Json.escape
  split
  case h_1 same => exact absurd (Char.toNat_inj.mp (same.trans rfl)) unquoted
  case h_2 same => exact absurd (Char.toNat_inj.mp (same.trans rfl)) unescaped
  case h_8 => rw [if_neg (by omega)]
  all_goals omega

theorem string_eq_quoted {text : Text} (plain : ∀ char ∈ text, Plain char) : Json.string text = Json.quoted text := by
  have same : text.flatMap Json.escape = text := by
    induction text with
    | nil => rfl
    | cons char text ih =>
      obtain ⟨first, others⟩ := forall_mem_cons.mp plain
      rw [flatMap_cons, first.escape, ih others, singleton_append]
  rw [Json.string, same, Json.quoted, append_assoc, singleton_append]

theorem escapes_of_plain {text : Text} (plain : ∀ char ∈ text, Plain char) : Json.Escapes text text :=
  Json.Escapes.self fun char member => ⟨(plain char member).1, (plain char member).2.2⟩

theorem plain_of_mem_digest (digest : Digest) (member : char ∈ digest.asStr) : Plain char := by
  have range := digest.toNat_of_mem member
  refine ⟨by omega, by omega, ?_, ?_⟩
  · rintro rfl
    exact absurd range (by decide)
  · rintro rfl
    exact absurd range (by decide)

theorem plain_of_portable (portable : unportable char = false) : Plain char := by
  simp only [unportable, Bool.or_eq_false_iff, Bool.not_eq_false', Bool.and_eq_true, decide_eq_true_eq] at portable
  refine ⟨portable.1.1, portable.1.2, ?_, ?_⟩
  · rintro rfl
    exact absurd portable.2 (by decide)
  · rintro rfl
    exact absurd portable.2 (by decide)

theorem mem_intercalate {α : Type} {separator item : α} {parts : List (List α)} (member : item ∈ List.intercalate [separator] parts) :
    item = separator ∨ ∃ part ∈ parts, item ∈ part := by
  cases parts with
  | nil => cases member
  | cons first parts =>
    rw [Json.intercalate_cons, mem_append, mem_flatMap] at member
    rcases member with here | ⟨part, within, inside⟩
    · exact .inr ⟨first, mem_cons_self, here⟩
    · rcases mem_cons.mp inside with rfl | inside
      · exact .inl rfl
      · exact .inr ⟨part, mem_cons_of_mem _ within, inside⟩

theorem plain_of_mem_path (path : ArtifactSetRelativePath) (member : char ∈ path.asStr) : Plain char := by
  rw [← path.joinPath_components, joinPath] at member
  rcases mem_intercalate member with rfl | ⟨component, within, inside⟩
  · exact plain_of_portable (by decide)
  · have valid := ArtifactSetRelativePath.component_valid within
    unfold validateComponent at valid
    split at valid
    next => cases valid
    next portable =>
      simp only [Bool.or_eq_true, not_or, any_eq_true, not_exists, not_and, Bool.not_eq_true] at portable
      exact plain_of_portable (portable.2 char inside)

namespace ArtifactSetManifest
open Json

def memberEntries (member : ArtifactSetMember) : List (Text × Text) :=
  [("artifact_id".toList, Json.string member.artifactId.digest.asStr), ("byte_size".toList, Json.number member.byteSize.toNat),
    ("relative_path".toList, Json.string member.relativePath.asStr)]

/-- The compact JSON of the manifest by the general writer, which escapes where it has to. -/
def toJson (manifest : ArtifactSetManifest) : Text :=
  Json.object [("members".toList, Json.array (manifest.members.map fun member => Json.object (memberEntries member))),
    ("schema_version".toList, Json.number manifest.schemaVersion)]

variable {opening second closing : Text}

/-- Three values between the pieces of text that a member is written with. -/
theorem joined_member {third firstName secondName thirdName : Text} (opens : opening = '\x7b' :: (firstName ++ [':', '\x22']))
    (continues : second = '\x22' :: ',' :: (secondName ++ [':'])) (goesOn : third = ',' :: (thirdName ++ [':', '\x22']))
    (closes : closing = ['\x22', '\x7d']) (digest size path : Text) :
    opening ++ digest ++ second ++ size ++ third ++ path ++ closing = '\x7b' :: (firstName ++ ':' :: (quoted digest ++ ',' ::
      (secondName ++ ':' :: (size ++ ',' :: (thirdName ++ ':' :: (quoted path ++ ['\x7d'])))))) := by
  subst opens continues goesOn closes
  simp [quoted]

theorem memberJson_eq (member : ArtifactSetMember) :
    memberJson member = '\x7b' :: (quoted "artifact_id".toList ++ ':' :: (quoted member.artifactId.digest.asStr ++ ',' ::
      (quoted "byte_size".toList ++ ':' :: (number member.byteSize.toNat ++ ',' ::
        (quoted "relative_path".toList ++ ':' :: (quoted member.relativePath.asStr ++ ['\x7d'])))))) :=
  joined_member (by decide +kernel) (by decide +kernel) (by decide +kernel) rfl _ _ _

theorem joined_manifest {firstName secondName : Text} (opens : opening = '\x7b' :: (firstName ++ [':', '[']))
    (continues : second = ']' :: ',' :: (secondName ++ [':'])) (closes : closing = ['\x7d']) (members version : Text) :
    opening ++ members ++ second ++ version ++ closing = '\x7b' :: (firstName ++ ':' :: '[' :: (members ++
      ']' :: ',' :: (secondName ++ ':' :: (version ++ ['\x7d'])))) := by
  subst opens continues closes
  simp

theorem canonicalJson_eq (manifest : ArtifactSetManifest) :
    manifest.canonicalJson = '\x7b' :: (quoted "members".toList ++ ':' :: '[' :: (List.intercalate [','] (manifest.members.map memberJson) ++
      ']' :: ',' :: (quoted "schema_version".toList ++ ':' :: (number manifest.schemaVersion ++ ['\x7d'])))) :=
  joined_manifest (by decide +kernel) (by decide +kernel) rfl _ _

theorem object_pair (first second : Text × Text) : Json.object [first, second] =
    '\x7b' :: (Json.string first.1 ++ ':' :: (first.2 ++ ',' :: (Json.string second.1 ++ ':' :: (second.2 ++ ['\x7d'])))) := by
  simp [Json.object]

theorem object_triple (first second third : Text × Text) : Json.object [first, second, third] =
    '\x7b' :: (Json.string first.1 ++ ':' :: (first.2 ++ ',' :: (Json.string second.1 ++ ':' :: (second.2 ++ ',' ::
      (Json.string third.1 ++ ':' :: (third.2 ++ ['\x7d'])))))) := by
  simp [Json.object]

theorem string_names : Json.string "artifact_id".toList = quoted "artifact_id".toList ∧ Json.string "byte_size".toList = quoted "byte_size".toList ∧
    Json.string "relative_path".toList = quoted "relative_path".toList ∧ Json.string "members".toList = quoted "members".toList ∧
    Json.string "schema_version".toList = quoted "schema_version".toList := by decide +kernel

theorem memberJson_eq_object (member : ArtifactSetMember) : memberJson member = Json.object (memberEntries member) := by
  obtain ⟨artifactId, byteSize, relativePath, -⟩ := string_names
  rw [memberJson_eq, memberEntries, object_triple, artifactId, byteSize, relativePath,
    string_eq_quoted fun _ => plain_of_mem_digest member.artifactId.digest, string_eq_quoted fun _ => plain_of_mem_path member.relativePath]

/-- The text written by hand is the one of the general writer, so nothing in it needed an escape. -/
theorem canonicalJson_eq_toJson (manifest : ArtifactSetManifest) : manifest.canonicalJson = manifest.toJson := by
  obtain ⟨-, -, -, members, schemaVersion⟩ := string_names
  have each : manifest.members.map memberJson = manifest.members.map fun member => Json.object (memberEntries member) :=
    map_congr_left fun member _ => memberJson_eq_object member
  rw [canonicalJson_eq, toJson, object_pair, members, schemaVersion, Json.array, each]
  simp

theorem escapes_names : Escapes "artifact_id".toList "artifact_id".toList ∧ Escapes "byte_size".toList "byte_size".toList ∧
    Escapes "relative_path".toList "relative_path".toList ∧ Escapes "members".toList "members".toList ∧
    Escapes "schema_version".toList "schema_version".toList := by
  refine ⟨.self ?_, .self ?_, .self ?_, .self ?_, .self ?_⟩ <;> exact all_iff_forall_prop.mp rfl

def memberLexemes (member : ArtifactSetMember) : List Lexeme :=
  .mark .openBrace :: (commaSeparated ([("artifact_id".toList, [.string member.artifactId.digest.asStr]),
    ("byte_size".toList, [.natural member.byteSize.toNat]), ("relative_path".toList, [.string member.relativePath.asStr])].map entryLexemes) ++
    [.mark .closeBrace])

theorem spelling_member (member : ArtifactSetMember) : Spelling (memberJson member) (memberLexemes member) := by
  intro rest following after
  obtain ⟨artifactId, byteSize, relativePath, -⟩ := escapes_names
  have path := escapes_of_plain fun _ => plain_of_mem_path member.relativePath
  have digest := escapes_of_plain fun _ => plain_of_mem_digest member.artifactId.digest
  have third := Spells.quoted relativePath (.mark .colon (.quoted path (.mark .closeBrace after)))
  have second := Spells.quoted byteSize (.mark .colon (.natural member.byteSize.toNat (ended_mark .comma _) (.mark .comma third)))
  have first := Spells.mark .openBrace (.quoted artifactId (.mark .colon (.quoted digest (.mark .comma second))))
  rw [memberJson_eq]
  simpa [memberLexemes, commaSeparated, followed, entryLexemes, Mark.char] using first

theorem spelling_members (members : List ArtifactSetMember) :
    Spelling (List.intercalate [','] (members.map memberJson)) (commaSeparated (members.map memberLexemes)) := by
  apply Spelling.commaSeparated
  rw [forall₂_map_left_iff, forall₂_map_right_iff]
  exact forall₂_same.mpr fun member _ => spelling_member member

def manifestLexemes (manifest : ArtifactSetManifest) : List Lexeme :=
  .mark .openBrace :: (commaSeparated ([("members".toList, .mark .openBracket :: (commaSeparated (manifest.members.map memberLexemes) ++
    [.mark .closeBracket])), ("schema_version".toList, [.natural manifest.schemaVersion])].map entryLexemes) ++ [.mark .closeBrace])

theorem spells_canonicalJson (manifest : ArtifactSetManifest) : Spells manifest.canonicalJson manifest.manifestLexemes := by
  obtain ⟨-, -, -, members, schemaVersion⟩ := escapes_names
  have last := Spells.quoted schemaVersion (.mark .colon (.natural manifest.schemaVersion (ended_mark .closeBrace _) (.mark .closeBrace .nil)))
  have array := spelling_members manifest.members (.mark .closeBracket (.mark .comma last))
  have whole := Spells.mark .openBrace (.quoted members (.mark .colon (.mark .openBracket array)))
  rw [canonicalJson_eq]
  simpa [manifestLexemes, commaSeparated, followed, entryLexemes, Mark.char] using whole

theorem readOnce_reads {α β : Type} {read : ManifestReader α} {lexemes : List Lexeme} {value : α} (reads : Reads read lexemes value) (store : α → β) :
    Reads (readOnce none read store) lexemes (store value) := by
  intro rest
  simp [readOnce, reads rest]

theorem readArtifactId_reads (artifactId : ArtifactId) : Reads MemberWire.readArtifactId [.string artifactId.digest.asStr] artifactId := by
  intro rest
  have known : Digest.fromSha256Hex artifactId.digest.asStr = some artifactId.digest := Digest.fromSha256Hex_eq_some.mpr rfl
  simp [MemberWire.readArtifactId, readString, known]

theorem readByteSize_reads (byteSize : UInt64) : Reads MemberWire.readByteSize [.natural byteSize.toNat] byteSize := by
  intro rest
  rw [MemberWire.readByteSize, readNatural_reads _ byteSize.toNat_lt rest]
  simp

theorem entry_artifactId (fields : MemberWire.Fields) : MemberWire.entry fields "artifact_id".toList =
    readOnce fields.artifactId MemberWire.readArtifactId fun value => { fields with artifactId := some value } := if_pos rfl

theorem entry_byteSize (fields : MemberWire.Fields) : MemberWire.entry fields "byte_size".toList =
    readOnce fields.byteSize MemberWire.readByteSize fun value => { fields with byteSize := some value } := by
  rw [MemberWire.entry, if_neg (by decide), if_pos rfl]

theorem entry_relativePath (fields : MemberWire.Fields) : MemberWire.entry fields "relative_path".toList =
    readOnce fields.relativePath MemberWire.readRelativePath fun value => { fields with relativePath := some value } := by
  rw [MemberWire.entry, if_neg (by decide), if_neg (by decide), if_pos rfl]

def wireOf (member : ArtifactSetMember) : MemberWire := ⟨member.artifactId, member.byteSize, member.relativePath.asStr⟩

theorem readMember_reads (member : ArtifactSetMember) : Reads MemberWire.read (memberLexemes member) (wireOf member) := by
  have runs : Runs MemberWire.entry ⟨none, none, none⟩ [("artifact_id".toList, [.string member.artifactId.digest.asStr]),
      ("byte_size".toList, [.natural member.byteSize.toNat]), ("relative_path".toList, [.string member.relativePath.asStr])]
      ⟨some member.artifactId, some member.byteSize, some member.relativePath.asStr⟩ := by
    refine ⟨⟨some member.artifactId, none, none⟩, ?_, ⟨some member.artifactId, some member.byteSize, none⟩, ?_, _, ?_, rfl⟩
    · rw [entry_artifactId]
      exact readOnce_reads (readArtifactId_reads member.artifactId) _
    · rw [entry_byteSize]
      exact readOnce_reads (readByteSize_reads member.byteSize) _
    · rw [entry_relativePath]
      exact readOnce_reads (readString_reads _ member.relativePath.asStr) _
  intro rest
  have opened : (memberLexemes member ++ rest).head? ≠ some (.mark .openBracket) := nofun
  rw [MemberWire.read, if_neg opened, MemberWire.readObject, memberLexemes, readObject_reads runs rest]
  rfl

theorem readMembers_reads (members : List ArtifactSetMember) : Reads ManifestWire.readMembers
    (.mark .openBracket :: (commaSeparated (members.map memberLexemes) ++ [.mark .closeBracket])) (members.map wireOf) := by
  have each : ∀ item ∈ members.map fun member => (memberLexemes member, wireOf member), Begins item.1 ∧ Reads MemberWire.read item.1 item.2 := by
    intro item within
    obtain ⟨member, -, rfl⟩ := mem_map.mp within
    exact ⟨⟨_, _, rfl, nofun⟩, readMember_reads member⟩
  have folded := @foldlM_push ArtifactSetManifestError _ _ Prod.snd (members.map fun member => (memberLexemes member, wireOf member)) []
  have reads : Reads ManifestWire.readMembers _ _ := readArray_reads each folded
  simpa [Function.comp_def] using reads

theorem entry_members (fields : ManifestWire.Fields) : ManifestWire.entry fields "members".toList =
    readOnce fields.members ManifestWire.readMembers fun value => { fields with members := some value } := if_pos rfl

theorem entry_schemaVersion (fields : ManifestWire.Fields) : ManifestWire.entry fields "schema_version".toList =
    readOnce fields.schemaVersion ManifestWire.readSchemaVersion fun value => { fields with schemaVersion := some value } := by
  rw [ManifestWire.entry, if_neg (by decide), if_pos rfl]

variable {manifest : ArtifactSetManifest}

theorem readManifest_reads (fits : manifest.schemaVersion < 2 ^ 32) :
    Reads ManifestWire.read manifest.manifestLexemes ⟨manifest.members.map wireOf, manifest.schemaVersion⟩ := by
  have runs : Runs ManifestWire.entry ⟨none, none⟩ [("members".toList, .mark .openBracket :: (commaSeparated (manifest.members.map memberLexemes) ++
      [.mark .closeBracket])), ("schema_version".toList, [.natural manifest.schemaVersion])] ⟨some (manifest.members.map wireOf), some manifest.schemaVersion⟩ := by
    refine ⟨⟨some (manifest.members.map wireOf), none⟩, ?_, _, ?_, rfl⟩
    · rw [entry_members]
      exact readOnce_reads (readMembers_reads manifest.members) _
    · rw [entry_schemaVersion]
      exact readOnce_reads (readNatural_reads _ fits) _
  intro rest
  have opened : (manifest.manifestLexemes ++ rest).head? ≠ some (.mark .openBracket) := nofun
  rw [ManifestWire.read, if_neg opened, ManifestWire.readObject, manifestLexemes, readObject_reads runs rest]
  rfl

theorem toMember_wireOf (member : ArtifactSetMember) : (wireOf member).toMember = .ok member := by
  rw [MemberWire.toMember, wireOf, ArtifactSetRelativePath.new_asStr]
  rfl

theorem validateMembers_budget {members : List ArtifactSetMember} {prior : Option Text} {pathBytes totalBytes total : Nat} {root : PathNode}
    (valid : validateMembers members prior pathBytes totalBytes root = .ok total) :
    members = [] ∨ pathBytes + (members.map fun member => byteLen member.relativePath.asStr).sum ≤ maxArtifactSetTotalPathBytes := by
  induction members generalizing prior pathBytes totalBytes root with
  | nil => exact .inl rfl
  | cons member members ih =>
    simp only [validateMembers, bind_eq_ok, exists_unit, require_eq_ok] at valid
    obtain ⟨-, budget, -, grown, -, valid⟩ := valid
    rw [map_cons, sum_cons]
    rcases ih valid with rfl | rest
    · exact .inr (by simpa using budget)
    · exact .inr (by omega)

theorem validate_eq_ok (valid : manifest.validate = .ok ()) :
    manifest.schemaVersion = artifactSetManifestSchemaVersion ∧ manifest.members.length ≤ maxArtifactSetMembers ∧
      (manifest.members.map fun member => byteLen member.relativePath.asStr).sum ≤ maxArtifactSetTotalPathBytes := by
  simp only [validate, bind_eq_ok, exists_unit, require_eq_ok] at valid
  obtain ⟨version, filled, few, total, members, -⟩ := valid
  have budget := (validateMembers_budget members).resolve_left filled
  rw [Nat.zero_add] at budget
  exact ⟨version, few, budget⟩

theorem byteLen_decimal_le {value digits : Nat} (positive : 0 < digits) (small : value < 10 ^ digits) : byteLen (decimal value) ≤ digits := by
  have narrow : ∀ char ∈ decimal value, char.utf8Size = 1 := by
    intro char member
    have digit : char.isDigit = true := Nat.isDigit_of_mem_toDigits (by decide) (by decide) member
    have range := Unicode.toNat_of_isDigit digit
    have small : char.toNat ≤ 127 := by omega
    exact Char.utf8Size_eq_one_iff.mpr small
  rw [byteLen_eq_length narrow]
  exact (Nat.length_toDigits_le_iff (by decide) positive).mpr small

theorem byteLen_pieces {digest size third path : Text} (opens : byteLen opening = 16) (digested : byteLen digest = 64)
    (continues : byteLen second = 14) (sized : byteLen size ≤ 20) (goesOn : byteLen third = 18) (closes : byteLen closing = 2) :
    byteLen (opening ++ digest ++ second ++ size ++ third ++ path ++ closing) ≤ 134 + byteLen path := by
  simp only [byteLen_append]
  omega

theorem byteLen_memberJson_le (member : ArtifactSetMember) : byteLen (memberJson member) ≤ 134 + byteLen member.relativePath.asStr := by
  have size := byteLen_decimal_le (show 0 < 20 by decide) (Nat.lt_trans member.byteSize.toNat_lt (by decide))
  exact byteLen_pieces rfl member.artifactId.digest.byteLen_asStr rfl size rfl rfl

theorem byteLen_intercalate_le (members : List ArtifactSetMember) : byteLen (List.intercalate [','] (members.map memberJson)) ≤
    135 * members.length + (members.map fun member => byteLen member.relativePath.asStr).sum := by
  have comma : ','.utf8Size = 1 := by decide
  have later : ∀ members : List ArtifactSetMember, byteLen ((members.map memberJson).flatMap (',' :: ·)) ≤
      135 * members.length + (members.map fun member => byteLen member.relativePath.asStr).sum := by
    intro members
    induction members with
    | nil => exact Nat.le_refl _
    | cons member members ih =>
      have here := byteLen_memberJson_le member
      simp only [map_cons, flatMap_cons, byteLen_append, byteLen_cons, sum_cons, length_cons, comma]
      omega
  cases members with
  | nil => exact Nat.zero_le _
  | cons member members =>
    have here := byteLen_memberJson_le member
    have others := later members
    simp only [map_cons, Json.intercalate_cons, byteLen_append, sum_cons, length_cons]
    omega

theorem byteLen_frame {members version : Text} (opens : byteLen opening = 12) (continues : byteLen second = 19)
    (versioned : byteLen version = 1) (closes : byteLen closing = 1) :
    byteLen (opening ++ members ++ second ++ version ++ closing) = byteLen members + 33 := by
  simp only [byteLen_append]
  omega

/-- The largest manifest takes at most 135 bytes for each member beside the paths, and 33 around them. -/
theorem byteLen_canonicalJson_le (valid : manifest.validate = .ok ()) : byteLen manifest.canonicalJson ≤ maxArtifactSetManifestJsonBytes := by
  obtain ⟨version, few, budget⟩ := validate_eq_ok valid
  have members := byteLen_intercalate_le manifest.members
  have versioned : byteLen (decimal manifest.schemaVersion) = 1 := version ▸ rfl
  have frame : byteLen manifest.canonicalJson = byteLen (List.intercalate [','] (manifest.members.map memberJson)) + 33 :=
    byteLen_frame rfl rfl versioned rfl
  simp only [maxArtifactSetMembers, maxArtifactSetTotalPathBytes] at few budget
  rw [frame, maxArtifactSetManifestJsonBytes]
  omega

/-- The reader checks the text of any manifest as the manifest itself is checked. -/
theorem fromJsonBytes_eq (scanner : Scanner) (representable : manifest.schemaVersion < 2 ^ 32) :
    fromJsonBytes scanner (encode manifest.canonicalJson) = (do
      require (byteLen manifest.canonicalJson ≤ maxArtifactSetManifestJsonBytes) .encodedManifestTooLarge
      require (manifest.members.length ≤ maxArtifactSetMembers) .tooManyMembers
      fromWire manifest.schemaVersion manifest.members) := by
  have scanned := scanner.conforms (spells_canonicalJson manifest)
  have read := readManifest_reads representable []
  have members := mapM_map_eq_ok wireOf fun member (_ : member ∈ manifest.members) => toMember_wireOf member
  rw [append_nil] at read
  simp [fromJsonBytes, decode_encode, scanned, read, members, require]

theorem fromJsonBytes_canonicalJson (scanner : Scanner) (valid : manifest.validate = .ok ()) :
    fromJsonBytes scanner (encode manifest.canonicalJson) = .ok manifest := by
  obtain ⟨version, few, -⟩ := validate_eq_ok valid
  have short := byteLen_canonicalJson_le valid
  have representable : manifest.schemaVersion < 2 ^ 32 := version ▸ (by decide)
  rw [fromJsonBytes_eq scanner representable]
  simp [short, few, fromWire, valid, require]

/-- Two valid manifests with one text are one manifest: either is what the text is read as. -/
theorem canonicalJson_injective {other : ArtifactSetManifest} (valid : manifest.validate = .ok ()) (alsoValid : other.validate = .ok ())
    (same : manifest.canonicalJson = other.canonicalJson) : manifest = other := by
  have read := fromJsonBytes_canonicalJson Scanner.strict valid
  rw [same, fromJsonBytes_canonicalJson Scanner.strict alsoValid] at read
  cases read
  rfl

/-- The bytes that the identity of a manifest is the digest of. -/
def identityBytes (manifest : ArtifactSetManifest) : Bytes :=
  encode ("retonr:artifact-set-manifest:v1".toList ++ [Char.ofNat 0]) ++ encode manifest.canonicalJson

theorem eq_of_artifactSetId {other : ArtifactSetManifest} (valid : manifest.validate = .ok ()) (alsoValid : other.validate = .ok ())
    (separated : Separated manifest.identityBytes other.identityBytes) (same : manifest.artifactSetId = other.artifactSetId) : manifest = other := by
  have digests : Digest.sha256 manifest.identityBytes = Digest.sha256 other.identityBytes := congrArg ArtifactSetId.digest same
  have bytes := append_cancel_left (separated digests)
  exact canonicalJson_injective valid alsoValid (encode_injective bytes)

/-- The digests and paths of a manifest hold no character that needs an escape, the text is short enough for the reader, and the
reader gives the manifest back; so no two valid manifests share a text, nor an identity unless the digest confuses their texts. -/
theorem valid_manifests_round_trip (scanner : Scanner) (manifest : ArtifactSetManifest) (valid : manifest.validate = .ok ()) :
    (encode manifest.canonicalJson).length ≤ maxArtifactSetManifestJsonBytes ∧
      ((∀ member ∈ manifest.members, ∀ char ∈ member.artifactId.digest.asStr ++ member.relativePath.asStr, Json.escape char = [char]) ∧
        manifest.canonicalJson = manifest.toJson) ∧ fromJsonBytes scanner (encode manifest.canonicalJson) = .ok manifest ∧
      ∀ other : ArtifactSetManifest, other.validate = .ok () → (manifest.canonicalJson = other.canonicalJson → manifest = other) ∧
        (Separated manifest.identityBytes other.identityBytes → manifest.artifactSetId = other.artifactSetId → manifest = other) := by
  refine ⟨?_, ⟨?_, manifest.canonicalJson_eq_toJson⟩, fromJsonBytes_canonicalJson scanner valid, ?_⟩
  · rw [length_encode]
    exact byteLen_canonicalJson_le valid
  · intro member _ char inside
    rcases mem_append.mp inside with digest | path
    · exact (plain_of_mem_digest _ digest).escape
    · exact (plain_of_mem_path _ path).escape
  · intro other alsoValid
    exact ⟨canonicalJson_injective valid alsoValid, eq_of_artifactSetId valid alsoValid⟩

/-- A set of the one two-byte file `a/b`. -/
def shortManifest : ArtifactSetManifest where
  members := [⟨⟨⟨List.replicate 64 'a', Eq.refl true⟩⟩, 2, ⟨['a', '/', 'b'], by decide⟩⟩]
  schemaVersion := artifactSetManifestSchemaVersion

theorem valid_manifests_round_trip_short : shortManifest.validate = .ok () ∧
    fromJsonBytes Scanner.strict (encode shortManifest.canonicalJson) = .ok shortManifest := by
  have valid : shortManifest.validate = .ok () := rfl
  obtain ⟨-, -, read, -⟩ := valid_manifests_round_trip Scanner.strict shortManifest valid
  exact ⟨valid, read⟩

end ArtifactSetManifest

end Retonr
