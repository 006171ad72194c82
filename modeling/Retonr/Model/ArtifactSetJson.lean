import Retonr.Lib.JsonReader
import Retonr.Model.ArtifactSet

/-! The reader of artifact-set manifests. Both records on the wire may be spelled as objects with their
fields in any order, or as arrays with the fields in the order of their declaration; a field that is
unknown, missing or repeated is refused. The scanner of the JSON text is a parameter. -/

namespace Retonr
open Text

abbrev ManifestReader (α : Type) := Json.Reader ArtifactSetManifestError α

structure MemberWire where
  artifactId : ArtifactId
  byteSize : UInt64
  relativePath : Text

structure ManifestWire where
  members : List MemberWire
  schemaVersion : Nat

/-- A field that must not have been read before. -/
def readOnce {α β : Type} (known : Option α) (read : ManifestReader α) (store : α → β) : ManifestReader β := fun lexemes =>
  if known.isSome then .error .invalidEncoding
  else do
    let (value, rest) ← read lexemes
    .ok (store value, rest)

namespace MemberWire

/-- The fields read so far. -/
structure Fields where
  artifactId : Option ArtifactId
  byteSize : Option UInt64
  relativePath : Option Text

def readArtifactId : ManifestReader ArtifactId := fun lexemes => do
  let (value, rest) ← Json.readString .invalidEncoding lexemes
  match Digest.fromSha256Hex value with
  | some digest => .ok (⟨digest⟩, rest)
  | none => .error .invalidEncoding

def readByteSize : ManifestReader UInt64 := fun lexemes => do
  let (value, rest) ← Json.readNatural .invalidEncoding (2 ^ 64) lexemes
  .ok (UInt64.ofNat value, rest)

def readRelativePath : ManifestReader Text := Json.readString .invalidEncoding

def entry (fields : Fields) (key : Text) : ManifestReader Fields :=
  if key = "artifact_id".toList then readOnce fields.artifactId readArtifactId fun value => { fields with artifactId := some value }
  else if key = "byte_size".toList then readOnce fields.byteSize readByteSize fun value => { fields with byteSize := some value }
  else if key = "relative_path".toList then
    readOnce fields.relativePath readRelativePath fun value => { fields with relativePath := some value }
  else fun _ => .error .invalidEncoding

def Fields.complete : Fields → Except ArtifactSetManifestError MemberWire
  | ⟨some artifactId, some byteSize, some relativePath⟩ => .ok ⟨artifactId, byteSize, relativePath⟩
  | _ => .error .invalidEncoding

def readObject : ManifestReader MemberWire := fun lexemes => do
  let (fields, rest) ← Json.readObject .invalidEncoding entry ⟨none, none, none⟩ lexemes
  let wire ← fields.complete
  .ok (wire, rest)

def readSequence : ManifestReader MemberWire := fun lexemes => do
  let lexemes ← Json.expect .invalidEncoding .openBracket lexemes
  let (artifactId, lexemes) ← Json.element .invalidEncoding true readArtifactId lexemes
  let (byteSize, lexemes) ← Json.element .invalidEncoding false readByteSize lexemes
  let (relativePath, lexemes) ← Json.element .invalidEncoding false readRelativePath lexemes
  let rest ← Json.expect .invalidEncoding .closeBracket lexemes
  .ok (⟨artifactId, byteSize, relativePath⟩, rest)

def read : ManifestReader MemberWire := fun lexemes =>
  if lexemes.head? = some (.mark .openBracket) then readSequence lexemes else readObject lexemes

/-- The member with its path checked. -/
def toMember (wire : MemberWire) : Except ArtifactSetManifestError ArtifactSetMember := do
  let relativePath ← (ArtifactSetRelativePath.new wire.relativePath).mapError fun _ => ArtifactSetManifestError.invalidMemberPath
  .ok ⟨wire.artifactId, wire.byteSize, relativePath⟩

end MemberWire

namespace ManifestWire

structure Fields where
  members : Option (List MemberWire)
  schemaVersion : Option Nat

def readMembers : ManifestReader (List MemberWire) :=
  Json.readArray .invalidEncoding MemberWire.read (fun members member => .ok (members ++ [member])) []

def readSchemaVersion : ManifestReader Nat := Json.readNatural .invalidEncoding (2 ^ 32)

def entry (fields : Fields) (key : Text) : ManifestReader Fields :=
  if key = "members".toList then readOnce fields.members readMembers fun value => { fields with members := some value }
  else if key = "schema_version".toList then
    readOnce fields.schemaVersion readSchemaVersion fun value => { fields with schemaVersion := some value }
  else fun _ => .error .invalidEncoding

def Fields.complete : Fields → Except ArtifactSetManifestError ManifestWire
  | ⟨some members, some schemaVersion⟩ => .ok ⟨members, schemaVersion⟩
  | _ => .error .invalidEncoding

def readObject : ManifestReader ManifestWire := fun lexemes => do
  let (fields, rest) ← Json.readObject .invalidEncoding entry ⟨none, none⟩ lexemes
  let wire ← fields.complete
  .ok (wire, rest)

def readSequence : ManifestReader ManifestWire := fun lexemes => do
  let lexemes ← Json.expect .invalidEncoding .openBracket lexemes
  let (members, lexemes) ← Json.element .invalidEncoding true readMembers lexemes
  let (schemaVersion, lexemes) ← Json.element .invalidEncoding false readSchemaVersion lexemes
  let rest ← Json.expect .invalidEncoding .closeBracket lexemes
  .ok (⟨members, schemaVersion⟩, rest)

def read : ManifestReader ManifestWire := fun lexemes =>
  if lexemes.head? = some (.mark .openBracket) then readSequence lexemes else readObject lexemes

end ManifestWire

namespace ArtifactSetManifest

def fromWire (schemaVersion : Nat) (members : List ArtifactSetMember) : Except ArtifactSetManifestError ArtifactSetManifest := do
  let manifest : ArtifactSetManifest := ⟨members, schemaVersion⟩
  manifest.validate
  .ok manifest

def fromJsonBytes (scanner : Json.Scanner) (bytes : Bytes) : Except ArtifactSetManifestError ArtifactSetManifest := do
  Except.require (bytes.length ≤ maxArtifactSetManifestJsonBytes) .encodedManifestTooLarge
  match decode bytes with
  | .error _ => .error .invalidEncoding
  | .ok text => do
      let (wire, rest) ← ManifestWire.read (scanner.scan text)
      Except.require (rest = []) .invalidEncoding
      Except.require (wire.members.length ≤ maxArtifactSetMembers) .tooManyMembers
      let members ← wire.members.mapM MemberWire.toMember
      fromWire wire.schemaVersion members

end ArtifactSetManifest

end Retonr
