import Retonr.Lib.Except
import Retonr.Model.Artifact

/-! Artifact-set manifests: portable member paths, the trie that rejects colliding ones, the canonical
JSON and the identity derived from it, and the installation record joined to a manifest. -/

namespace Retonr
open Text Retonr.Except

def artifactSetManifestSchemaVersion : Nat := 1
def maxArtifactSetMembers : Nat := 4096
def maxArtifactSetRelativePathBytes : Nat := 512
def maxArtifactSetPathComponentBytes : Nat := 255
def maxArtifactSetTotalPathBytes : Nat := 262144
def maxArtifactSetManifestJsonBytes : Nat := 1048576

structure ArtifactSetId where
  digest : Digest
  deriving DecidableEq

inductive ArtifactSetPathError where
  | invalidPath
  | reservedComponent
  deriving DecidableEq

def reservedWindowsBasename (value : Text) : Bool :=
  ["con", "prn", "aux", "nul", "conin$", "conout$", "clock$"].any (fun name => eqIgnoreAsciiCase value name.toList) ||
    value.length == 4 && (eqIgnoreAsciiCase (value.take 3) "com".toList || eqIgnoreAsciiCase (value.take 3) "lpt".toList) &&
      (value.drop 3).all fun digit => decide ('1' ≤ digit) && decide (digit ≤ '9')

/-- A character that a portable path component may not hold. -/
def unportable (char : Char) : Bool :=
  !(decide (0x20 ≤ char.toNat) && decide (char.toNat ≤ 0x7e)) || "\\<>:\x22|?*".toList.contains char

def validateComponent (component : Text) : Except ArtifactSetPathError Unit :=
  if component.isEmpty || decide (maxArtifactSetPathComponentBytes < byteLen component) ||
      component == ['.'] || component == ['.', '.'] || component.head? == some ' ' ||
      component.getLast? == some ' ' || component.getLast? == some '.' || component.any unportable then
    .error .invalidPath
  else if reservedWindowsBasename (component.takeWhile (· ≠ '.')) then .error .reservedComponent
  else .ok ()

def validatePath (value : Text) : Except ArtifactSetPathError Unit :=
  if value.isEmpty || decide (maxArtifactSetRelativePathBytes < byteLen value) || value.any (fun char => decide (0x7f < char.toNat)) ||
      value.head? == some '/' || value.getLast? == some '/' then .error .invalidPath
  else (value.splitOn '/').forM validateComponent

/-- A portable logical path. -/
structure ArtifactSetRelativePath where
  asStr : Text
  valid : validatePath asStr = .ok ()
  deriving DecidableEq

namespace ArtifactSetRelativePath

def new (value : Text) : Except ArtifactSetPathError ArtifactSetRelativePath :=
  match checked : validatePath value with
  | .ok () => .ok ⟨value, checked⟩
  | .error fault => .error fault

def components (path : ArtifactSetRelativePath) : List Text := path.asStr.splitOn '/'

end ArtifactSetRelativePath

structure ArtifactSetMember where
  artifactId : ArtifactId
  byteSize : UInt64
  relativePath : ArtifactSetRelativePath
  deriving DecidableEq

structure ArtifactSetManifest where
  members : List ArtifactSetMember
  schemaVersion : Nat
  deriving DecidableEq

inductive ArtifactSetManifestError where
  | encodedManifestTooLarge
  | invalidEncoding
  | invalidMemberPath
  | unsupportedSchema (version : Nat)
  | emptySet
  | tooManyMembers
  | noncanonicalOrder
  | pathCollision
  | pathBudgetExceeded
  | emptyContent
  | totalSizeOverflow
  deriving DecidableEq

/-- One component of the member paths, with the components that follow it under their lower-case spelling. -/
inductive PathNode where
  | mk (children : List (Text × PathNode)) (spelling : Text) (terminal : Bool)

namespace PathNode

def children : PathNode → List (Text × PathNode)
  | mk children _ _ => children

def spelling : PathNode → Text
  | mk _ spelling _ => spelling

def terminal : PathNode → Bool
  | mk _ _ terminal => terminal

def root : PathNode := mk [] [] false

/-- The child under the key, or a fresh one spelled like the component. -/
def childOr (node : PathNode) (key component : Text) : PathNode :=
  match node.children.lookup key with
  | some child => child
  | none => mk [] component false

def withChild (node : PathNode) (key : Text) (child : PathNode) : PathNode :=
  mk ((key, child) :: node.children.filter fun entry => entry.1 != key) node.spelling node.terminal

def insertComponents : List Text → PathNode → Except ArtifactSetManifestError PathNode
  | [], node => .ok node
  | component :: rest, node => do
      let key := toAsciiLowercase component
      let child := node.childOr key component
      require (child.spelling = component ∧ child.terminal = false ∧ (rest = [] → child.children.isEmpty = true)) .pathCollision
      let marked := if rest = [] then mk child.children child.spelling true else child
      let grown ← insertComponents rest marked
      .ok (node.withChild key grown)

def insert (node : PathNode) (path : Text) : Except ArtifactSetManifestError PathNode := insertComponents (path.splitOn '/') node

end PathNode

namespace ArtifactSetManifest

/-- The checks over the members in order; the answer is the sum of their sizes. -/
def validateMembers : List ArtifactSetMember → Option Text → Nat → Nat → PathNode → Except ArtifactSetManifestError Nat
  | [], _, _, totalBytes, _ => .ok totalBytes
  | member :: members, priorPath, pathBytes, totalBytes, root => do
      let path := member.relativePath.asStr
      require (∀ prior ∈ priorPath, prior < path) .noncanonicalOrder
      require (pathBytes + byteLen path ≤ maxArtifactSetTotalPathBytes) .pathBudgetExceeded
      require (totalBytes + member.byteSize.toNat < 2 ^ 64) .totalSizeOverflow
      let root ← root.insert path
      validateMembers members (some path) (pathBytes + byteLen path) (totalBytes + member.byteSize.toNat) root

def validate (manifest : ArtifactSetManifest) : Except ArtifactSetManifestError Unit := do
  require (manifest.schemaVersion = artifactSetManifestSchemaVersion) (.unsupportedSchema manifest.schemaVersion)
  require (manifest.members ≠ []) .emptySet
  require (manifest.members.length ≤ maxArtifactSetMembers) .tooManyMembers
  let totalBytes ← validateMembers manifest.members none 0 0 .root
  require (totalBytes ≠ 0) .emptyContent

def totalByteSize (manifest : ArtifactSetManifest) : Nat := (manifest.members.map fun member => member.byteSize.toNat).sum

def memberJson (member : ArtifactSetMember) : Text :=
  "\x7b\x22artifact_id\x22:\x22".toList ++ member.artifactId.digest.asStr ++ "\x22,\x22byte_size\x22:".toList ++
    decimal member.byteSize.toNat ++ ",\x22relative_path\x22:\x22".toList ++ member.relativePath.asStr ++ "\x22\x7d".toList

def canonicalJson (manifest : ArtifactSetManifest) : Text :=
  "\x7b\x22members\x22:[".toList ++ List.intercalate [','] (manifest.members.map memberJson) ++
    "],\x22schema_version\x22:".toList ++ decimal manifest.schemaVersion ++ "\x7d".toList

def artifactSetId (manifest : ArtifactSetManifest) : ArtifactSetId :=
  ⟨Digest.sha256 (encode ("retonr:artifact-set-manifest:v1".toList ++ [Char.ofNat 0]) ++ encode manifest.canonicalJson)⟩

end ArtifactSetManifest

def installedArtifactSetSchemaVersion : Nat := 1
def maxInstalledArtifactSetStorageKeyBytes : Nat := 128

structure InstalledArtifactSet where
  artifactSetId : ArtifactSetId
  schemaVersion : Nat
  storageKey : Text
  deriving DecidableEq

inductive InstalledArtifactSetError where
  | unsupportedSchema (version : Nat)
  | artifactSetMismatch
  | invalidStorageKey

def validSetStorageKey (value : Text) : Bool :=
  !value.isEmpty && decide (byteLen value ≤ maxInstalledArtifactSetStorageKeyBytes) && !(value == ['.'] || value == ['.', '.']) &&
    value.getLast? != some '.' && value.all (fun char => char.isLower || char.isDigit || char == '-' || char == '_' || char == '.') &&
    !reservedWindowsBasename (value.takeWhile (· ≠ '.'))

namespace InstalledArtifactSet

def validateAgainst (installed : InstalledArtifactSet) (manifest : ArtifactSetManifest) : Except InstalledArtifactSetError Unit := do
  require (installed.schemaVersion = installedArtifactSetSchemaVersion) (.unsupportedSchema installed.schemaVersion)
  require (validSetStorageKey installed.storageKey = true) .invalidStorageKey
  require (installed.artifactSetId = manifest.artifactSetId) .artifactSetMismatch

def new (manifest : ArtifactSetManifest) (storageKey : Text) : Except InstalledArtifactSetError InstalledArtifactSet := do
  let installed : InstalledArtifactSet := ⟨manifest.artifactSetId, installedArtifactSetSchemaVersion, storageKey⟩
  installed.validateAgainst manifest
  .ok installed

def canonicalJson (installed : InstalledArtifactSet) : Text :=
  "\x7b\x22artifact_set_id\x22:\x22".toList ++ installed.artifactSetId.digest.asStr ++ "\x22,\x22schema_version\x22:".toList ++
    decimal installed.schemaVersion ++ ",\x22storage_key\x22:\x22".toList ++ installed.storageKey ++ "\x22\x7d".toList

end InstalledArtifactSet

end Retonr
