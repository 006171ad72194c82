import Retonr.Lib.Except
import Retonr.Types.Document

/-! The commitment to a controlled build's output tree: the entries are sorted, checked for a
complete directory shape and hashed field by field. -/

namespace Retonr.RuntimeIsolation
open Text Framing Retonr.Except

inductive IsolationError where
  | controlledBuildObjectMismatch

/-- The most files plus directories in an output tree. -/
def maximumControlledBuildOutputTreeEntries : Nat := 4096

/-- The most regular-file bytes in an output tree. -/
def maximumControlledBuildOutputBytes : Nat := 8 * 1024 * 1024 * 1024

def maximumPortablePathBytes : Nat := 4096

def portablePart (part : Text) : Bool :=
  !part.isEmpty && part != ".".toList && part != "..".toList && (encode part).all fun byte => 0x21 ≤ byte && byte ≤ 0x7e

def validPortableRelativePath (value : Text) : Bool :=
  !value.isEmpty
    && decide (byteLen value ≤ maximumPortablePathBytes)
    && value.all (fun char => char.val < 128)
    && value.head? != some '/'
    && value.getLast? != some '/'
    && !value.contains '\\'
    && (value.splitOn '/').all portablePart

/-- Every digest input starts with the format name and the domain, and every field of variable
length is written after its length. -/
structure RedactedDigestBuilder where
  bytes : Bytes

namespace RedactedDigestBuilder

def pushU8 (builder : RedactedDigestBuilder) (value : UInt8) : RedactedDigestBuilder := ⟨builder.bytes ++ [value]⟩

def pushU32 (builder : RedactedDigestBuilder) (value : UInt32) : RedactedDigestBuilder := ⟨builder.bytes ++ bigEndian 4 value.toNat⟩

def pushU64 (builder : RedactedDigestBuilder) (value : UInt64) : RedactedDigestBuilder := ⟨builder.bytes ++ bigEndian 8 value.toNat⟩

def pushBytes (builder : RedactedDigestBuilder) (value : Bytes) : RedactedDigestBuilder := ⟨builder.bytes ++ sized value⟩

def pushUsize (builder : RedactedDigestBuilder) (value : Nat) : RedactedDigestBuilder :=
  ⟨builder.bytes ++ bigEndian 8 (min value (2 ^ 64 - 1))⟩

def new (domain : Text) : RedactedDigestBuilder :=
  ((⟨[]⟩ : RedactedDigestBuilder).pushBytes (encode "retonr/redacted-digest/v1".toList)).pushBytes (encode domain)

def finish (builder : RedactedDigestBuilder) : Digest := Digest.sha256 builder.bytes

end RedactedDigestBuilder

inductive ControlledBuildOutputTreeEntryKind where
  | directory
  | regularFile (byteSize : UInt64) (digest : Digest)
  deriving DecidableEq

/-- One content-bound entry of an output tree. -/
structure ControlledBuildOutputTreeEntry where
  relativePath : Text
  kind : ControlledBuildOutputTreeEntryKind
  unixMode : UInt32
  portable : validPortableRelativePath relativePath = true
  permissions : unixMode &&& ~~~0o777 = 0
  deriving DecidableEq

namespace ControlledBuildOutputTreeEntry

def new (relativePath : Text) (kind : ControlledBuildOutputTreeEntryKind) (unixMode : UInt32) :
    Except IsolationError ControlledBuildOutputTreeEntry :=
  if checked : validPortableRelativePath relativePath = true ∧ unixMode &&& ~~~0o777 = 0 then
    .ok ⟨relativePath, kind, unixMode, checked.1, checked.2⟩
  else .error .controlledBuildObjectMismatch

def directory (relativePath : Text) (unixMode : UInt32) : Except IsolationError ControlledBuildOutputTreeEntry :=
  new relativePath .directory unixMode

def regularFile (relativePath : Text) (byteSize : UInt64) (digest : Digest) (unixMode : UInt32) :
    Except IsolationError ControlledBuildOutputTreeEntry := do
  require (byteSize.toNat ≤ maximumControlledBuildOutputBytes) .controlledBuildObjectMismatch
  new relativePath (.regularFile byteSize digest) unixMode

def isDirectory (entry : ControlledBuildOutputTreeEntry) : Bool := entry.kind == .directory

end ControlledBuildOutputTreeEntry

/-- The commitment to one exact, bounded, portable output tree. -/
structure ControlledBuildOutputTree where
  digest : Digest
  (entryCount regularFileCount totalFileBytes : Nat)
  nonempty : entryCount ≠ 0
  entriesBounded : entryCount ≤ maximumControlledBuildOutputTreeEntries
  hasRegularFile : regularFileCount ≠ 0
  filesBounded : regularFileCount ≤ entryCount
  bytesBounded : totalFileBytes ≤ maximumControlledBuildOutputBytes

/-- The walk from a path up through its parents; every round shortens the path. -/
def ancestorsListed (directories : List Text) : Nat → Text → Bool
  | 0, _ => true
  | fuel + 1, path =>
      match rsplitOnce ['/'] path with
      | none => true
      | some (parent, _) => directories.contains parent && ancestorsListed directories fuel parent

def hasCompleteDirectoryShape (entries : List ControlledBuildOutputTreeEntry) : Bool :=
  let directories := (entries.filter (·.isDirectory)).map (·.relativePath)
  entries.all fun entry => ancestorsListed directories entry.relativePath.length entry.relativePath

def hasAdjacentDuplicate : List ControlledBuildOutputTreeEntry → Bool
  | first :: second :: rest => first.relativePath == second.relativePath || hasAdjacentDuplicate (second :: rest)
  | _ => false

namespace ControlledBuildOutputTree

def fromParts (digest : Digest) (entryCount regularFileCount totalFileBytes : Nat) : Except IsolationError ControlledBuildOutputTree :=
  if checked : entryCount ≠ 0 ∧ entryCount ≤ maximumControlledBuildOutputTreeEntries ∧ regularFileCount ≠ 0 ∧
      regularFileCount ≤ entryCount ∧ totalFileBytes ≤ maximumControlledBuildOutputBytes then
    .ok ⟨digest, entryCount, regularFileCount, totalFileBytes, checked.1, checked.2.1, checked.2.2.1, checked.2.2.2.1, checked.2.2.2.2⟩
  else .error .controlledBuildObjectMismatch

structure Compilation where
  digest : RedactedDigestBuilder
  (regularFileCount totalFileBytes : Nat)

def compileEntry (state : Compilation) (entry : ControlledBuildOutputTreeEntry) : Except IsolationError Compilation :=
  let digest := (state.digest.pushBytes (encode entry.relativePath)).pushU32 entry.unixMode
  match entry.kind with
  | .directory => .ok { state with digest := digest.pushU8 0 }
  | .regularFile byteSize fileDigest => do
      require (state.regularFileCount + 1 < 2 ^ 32) .controlledBuildObjectMismatch
      require (state.totalFileBytes + byteSize.toNat < 2 ^ 64 ∧
        state.totalFileBytes + byteSize.toNat ≤ maximumControlledBuildOutputBytes) .controlledBuildObjectMismatch
      .ok ⟨((digest.pushU8 1).pushU64 byteSize).pushBytes (encode fileDigest.asStr), state.regularFileCount + 1,
        state.totalFileBytes + byteSize.toNat⟩

def sortEntries (entries : List ControlledBuildOutputTreeEntry) : List ControlledBuildOutputTreeEntry :=
  entries.insertionSort fun left right => encode left.relativePath ≤ encode right.relativePath

/-- The canonical commitment to the entries, after sorting and checking all of them. -/
def compile (entries : List ControlledBuildOutputTreeEntry) : Except IsolationError ControlledBuildOutputTree := do
  require (entries ≠ [] ∧ entries.length ≤ maximumControlledBuildOutputTreeEntries) .controlledBuildObjectMismatch
  let sorted := sortEntries entries
  require (hasAdjacentDuplicate sorted = false ∧ hasCompleteDirectoryShape sorted = true) .controlledBuildObjectMismatch
  let digest := (RedactedDigestBuilder.new "controlled-build-output-tree/v1".toList).pushUsize sorted.length
  let compiled ← sorted.foldlM compileEntry ⟨digest, 0, 0⟩
  require (sorted.length < 2 ^ 32) .controlledBuildObjectMismatch
  fromParts compiled.digest.finish sorted.length compiled.regularFileCount compiled.totalFileBytes

end ControlledBuildOutputTree

end Retonr.RuntimeIsolation
