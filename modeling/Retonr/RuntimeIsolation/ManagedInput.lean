import Retonr.Lib.Slice
import Retonr.RuntimeIsolation.BuildOutput

/-! Managed runtime inputs: the sink that retains files under canonical aliases, and the messages by
which a launch hands them to the helper that checks them again. -/

namespace Retonr.RuntimeIsolation
open Text Framing Slice Retonr.Except

namespace RuntimeInput

def managedRuntimeInputRootV1 : Text := "/tmp/retonr-managed-runtime-input-v1".toList

def maximumManagedRuntimeInputFiles : Nat := 64

def maximumManagedRuntimeInputBytes : Nat := 129 * 1024 * 1024 * 1024

def maximumMemberBytes : Nat := 128 * 1024 * 1024 * 1024

def maximumAliasBytes : Nat := 4096

def maximumAliasComponents : Nat := 32

def maximumAggregateAliasBytes : Nat := maximumManagedRuntimeInputFiles * maximumAliasBytes

/-- What the contract of runtime inputs answers with. -/
inductive RuntimeInputError where
  | runtimeInputObjectMismatch
  | cancelled
  deriving DecidableEq

structure RuntimeInputObjectIdentity where
  (device inode : UInt64)

structure RetainedRuntimeInputDeclaration where
  relativeAlias : Text
  expectedDigest : Digest
  expectedBytes : UInt64
  identity : RuntimeInputObjectIdentity

structure Metadata where
  isFile : Bool
  (links length device inode : UInt64)

/-- An open file as the checks observe it. Its flags say whether it is open for writing or as a path only. -/
structure RuntimeFile where
  metadata : Option Metadata
  flags : Option Bool
  digest : UInt64 → Except RuntimeInputError Digest

structure RetainedRuntimeInputMember where
  declaration : RetainedRuntimeInputDeclaration
  file : RuntimeFile

def aliasByte (byte : UInt8) : Bool :=
  (0x61 ≤ byte && byte ≤ 0x7a) || (0x30 ≤ byte && byte ≤ 0x39) || byte == 0x2e || byte == 0x5f || byte == 0x2d

def aliasComponent (component : Text) : Bool :=
  !component.isEmpty && component != ['.'] && component != ['.', '.'] && (encode component).all aliasByte

def validAlias (name : Text) : Bool :=
  !(name.isEmpty || decide (maximumAliasBytes < byteLen name) || name.head? == some '/' || name.getLast? == some '/' || name.contains '\\' ||
      (encode name).any fun byte => 0x41 ≤ byte && byte ≤ 0x5a)
    && (!(name.splitOn '/').isEmpty && decide ((name.splitOn '/').length ≤ maximumAliasComponents) && (name.splitOn '/').all aliasComponent)

def validateFile (file : RuntimeFile) (expectedDigest : Digest) (expectedBytes : UInt64) : Except RuntimeInputError RuntimeInputObjectIdentity :=
  match file.metadata, file.flags with
  | some metadata, some flags => do
      require (metadata.isFile = true ∧ metadata.links ≤ 1 ∧ metadata.length = expectedBytes ∧ flags = false) .runtimeInputObjectMismatch
      let digest ← file.digest expectedBytes
      require (digest = expectedDigest) .runtimeInputObjectMismatch
      .ok ⟨metadata.device, metadata.inode⟩
  | _, _ => .error .runtimeInputObjectMismatch

structure RetainedRuntimeInputSink where
  members : List RetainedRuntimeInputMember
  (totalBytes aliasBytes : Nat)

/-- What a source hands to the sink in one call. -/
structure Offer where
  relativeAlias : Text
  expectedDigest : Digest
  expectedBytes : UInt64
  file : RuntimeFile

namespace RetainedRuntimeInputSink

def retain (sink : RetainedRuntimeInputSink) (offer : Offer) : Except RuntimeInputError RetainedRuntimeInputSink := do
  require (validAlias offer.relativeAlias = true ∧
    (∀ member ∈ sink.members.getLast?, encode member.declaration.relativeAlias < encode offer.relativeAlias) ∧
    sink.members.length ≠ maximumManagedRuntimeInputFiles ∧ offer.expectedBytes ≠ 0 ∧ offer.expectedBytes.toNat ≤ maximumMemberBytes)
    .runtimeInputObjectMismatch
  let nextTotal := sink.totalBytes + offer.expectedBytes.toNat
  require (nextTotal < 2 ^ 64 ∧ nextTotal ≤ maximumManagedRuntimeInputBytes) .runtimeInputObjectMismatch
  let nextAliasBytes := sink.aliasBytes + byteLen offer.relativeAlias
  require (nextAliasBytes < usizeLimit ∧ nextAliasBytes ≤ maximumAggregateAliasBytes) .runtimeInputObjectMismatch
  let identity ← validateFile offer.file offer.expectedDigest offer.expectedBytes
  .ok ⟨sink.members ++ [⟨⟨offer.relativeAlias, offer.expectedDigest, offer.expectedBytes, identity⟩, offer.file⟩], nextTotal, nextAliasBytes⟩

/-- A refused offer leaves the sink as it was, and the source may go on. -/
def offered (sink : RetainedRuntimeInputSink) (offer : Offer) : RetainedRuntimeInputSink :=
  match sink.retain offer with
  | .ok next => next
  | .error _ => sink

end RetainedRuntimeInputSink

def pushDeclaration (digest : RedactedDigestBuilder) (declaration : RetainedRuntimeInputDeclaration) : RedactedDigestBuilder :=
  ((((digest.pushBytes (encode declaration.relativeAlias)).pushBytes (encode declaration.expectedDigest.asStr)).pushU64
    declaration.expectedBytes).pushU64 declaration.identity.device).pushU64 declaration.identity.inode

def layoutBuilder (declarations : List RetainedRuntimeInputDeclaration) : RedactedDigestBuilder :=
  let digest := RedactedDigestBuilder.new "runtime-isolation/managed-input-layout/v1".toList
  let digest := digest.pushBytes (encode managedRuntimeInputRootV1)
  let digest := digest.pushUsize maximumManagedRuntimeInputFiles
  let digest := digest.pushU64 (UInt64.ofNat maximumManagedRuntimeInputBytes)
  let digest := digest.pushUsize declarations.length
  declarations.foldl pushDeclaration digest

def runtimeInputLayoutDigest (declarations : List RetainedRuntimeInputDeclaration) : Digest := (layoutBuilder declarations).finish

structure RetainedRuntimeInputTree where
  members : List RetainedRuntimeInputMember
  totalBytes : Nat
  layoutDigest : Digest

/-- A source makes its offers in some order and ends its transfer one way or the other. -/
def RetainedRuntimeInputTree.fromSource (cancelled : Bool) (offers : List Offer) (transfer : Except RuntimeInputError Unit) :
    Except RuntimeInputError RetainedRuntimeInputTree := do
  require (cancelled = false) .cancelled
  let sink := offers.foldl RetainedRuntimeInputSink.offered ⟨[], 0, 0⟩
  transfer
  require (sink.members ≠ []) .runtimeInputObjectMismatch
  .ok ⟨sink.members, sink.totalBytes, runtimeInputLayoutDigest (sink.members.map (·.declaration))⟩

def RetainedRuntimeInputDeclaration.fromWire (relativeAlias : Text) (expectedDigest : Digest) (expectedBytes : UInt64)
    (identity : RuntimeInputObjectIdentity) : Except RuntimeInputError RetainedRuntimeInputDeclaration := do
  require (validAlias relativeAlias = true ∧ expectedBytes ≠ 0 ∧ expectedBytes.toNat ≤ maximumMemberBytes ∧ identity.device ≠ 0 ∧
    identity.inode ≠ 0) .runtimeInputObjectMismatch
  .ok ⟨relativeAlias, expectedDigest, expectedBytes, identity⟩

end RuntimeInput

namespace ManagedInput
open RuntimeInput

inductive HelperFailure where
  | invalidLaunch
  | runtimeInputObjectMismatch

/-- How the helper stops: with a failure it reports, or by a panic. -/
inductive Fault where
  | failure (failure : HelperFailure)
  | panicked

def faultOf : Stop → Fault
  | .refused => .failure .invalidLaunch
  | .outOfBounds | .wrapped => .panicked

def mapContractError : RuntimeInputError → Fault
  | .runtimeInputObjectMismatch => .failure .runtimeInputObjectMismatch
  | .cancelled => .failure .invalidLaunch

def managedLaunchCapabilityVersion : UInt8 := 2

def managedInputHeaderBytes : Nat := 80

def managedInputDeclarationVersion : UInt8 := 1

def declarationFixedBytes : Nat := 96

structure ManagedInputHeader where
  (count totalBytes : Nat)
  layoutDigest : Digest
  deriving DecidableEq

def addBytes (total : Nat) (declaration : RetainedRuntimeInputDeclaration) : Except Fault Nat := do
  let bytes := total + declaration.expectedBytes.toNat
  require (bytes < 2 ^ 64 ∧ bytes ≤ maximumManagedRuntimeInputBytes) (.failure .runtimeInputObjectMismatch)
  .ok bytes

def header (declarations : List RetainedRuntimeInputDeclaration) : Except Fault ManagedInputHeader := do
  require (declarations.length ≤ maximumManagedRuntimeInputFiles) (.failure .runtimeInputObjectMismatch)
  let totalBytes ← declarations.foldlM addBytes 0
  .ok ⟨declarations.length, totalBytes, runtimeInputLayoutDigest declarations⟩

def encodeHeader (header : ManagedInputHeader) : Bytes :=
  [managedLaunchCapabilityVersion, 0] ++ (bigEndian 2 (min header.count (2 ^ 16 - 1)) ++ ([0, 0, 0, 0] ++
    (bigEndian 8 header.totalBytes ++ encode header.layoutDigest.asStr)))

def parseDigest (bytes : Bytes) : Reading Digest := do
  match Digest.fromSha256Hex (← text bytes) with
  | some digest => .ok digest
  | none => .error .refused

def readHeader (payload : Bytes) : Reading ManagedInputHeader := do
  require (payload.length = managedInputHeaderBytes) .refused
  let version ← index payload 0
  require (version = managedLaunchCapabilityVersion) .refused
  let reserved ← index payload 1
  require (reserved = 0) .refused
  let zeros ← range payload 4 8
  require (zeros.any (· != 0) = false) .refused
  let count := bigEndianNat (← range payload 2 4)
  let totalBytes := bigEndianNat (← range payload 8 16)
  let layoutDigest ← parseDigest (← range payload 16 80)
  require (count ≤ maximumManagedRuntimeInputFiles ∧ totalBytes ≤ maximumManagedRuntimeInputBytes ∧ (count = 0 ↔ totalBytes = 0)) .refused
  .ok ⟨count, totalBytes, layoutDigest⟩

def decodeHeader (payload : Bytes) : Except Fault ManagedInputHeader := (readHeader payload).mapError faultOf

def encodeDeclaration (index : Nat) (declaration : RetainedRuntimeInputDeclaration) : Except Fault Bytes := do
  require (index < 2 ^ 16) (.failure .runtimeInputObjectMismatch)
  let aliasBytes := encode declaration.relativeAlias
  require (aliasBytes.length < 2 ^ 16) (.failure .runtimeInputObjectMismatch)
  .ok ([managedInputDeclarationVersion, 0] ++ (bigEndian 2 index ++ (bigEndian 2 aliasBytes.length ++ ([0, 0] ++
    (bigEndian 8 declaration.expectedBytes.toNat ++ (bigEndian 8 declaration.identity.device.toNat ++
      (bigEndian 8 declaration.identity.inode.toNat ++ (encode declaration.expectedDigest.asStr ++ aliasBytes))))))))

def readU16 (payload : Bytes) (offset : Nat) : Reading Nat := do
  .ok (bigEndianNat (← get payload offset (offset + 2)))

def readU64 (payload : Bytes) (offset : Nat) : Reading UInt64 := do
  .ok (UInt64.ofNat (bigEndianNat (← get payload offset (offset + 8))))

/-- The fields of a declaration before they are checked. -/
def readDeclaration (payload : Bytes) (expectedIndex : Nat) : Reading RetainedRuntimeInputDeclaration := do
  require (declarationFixedBytes ≤ payload.length) .refused
  let version ← index payload 0
  require (version = managedInputDeclarationVersion) .refused
  let reserved ← index payload 1
  require (reserved = 0) .refused
  let zeros ← range payload 6 8
  require (zeros.any (· != 0) = false) .refused
  let index ← readU16 payload 2
  let aliasLength ← readU16 payload 4
  require (index = expectedIndex ∧ aliasLength ≠ 0 ∧ aliasLength ≤ maximumAliasBytes ∧
    payload.length = min (declarationFixedBytes + aliasLength) (usizeLimit - 1)) .refused
  let expectedBytes ← readU64 payload 8
  let device ← readU64 payload 16
  let inode ← readU64 payload 24
  let expectedDigest ← parseDigest (← range payload 32 96)
  let relativeAlias ← text (← indexFrom payload 96)
  .ok ⟨relativeAlias, expectedDigest, expectedBytes, device, inode⟩

def decodeDeclaration (payload : Bytes) (expectedIndex : Nat) : Except Fault RetainedRuntimeInputDeclaration := do
  let fields ← (readDeclaration payload expectedIndex).mapError faultOf
  (RetainedRuntimeInputDeclaration.fromWire fields.relativeAlias fields.expectedDigest fields.expectedBytes fields.identity).mapError
    mapContractError

/-- Whether two neighbours stand out of order. -/
def hasDisorder : List RetainedRuntimeInputDeclaration → Bool
  | first :: second :: rest => decide (encode second.relativeAlias ≤ encode first.relativeAlias) || hasDisorder (second :: rest)
  | _ => false

def validateComplete (expected : ManagedInputHeader) (declarations : List RetainedRuntimeInputDeclaration) : Except Fault Unit := do
  require (hasDisorder declarations = false) (.failure .invalidLaunch)
  let observed ← header declarations
  require (observed = expected) (.failure .invalidLaunch)

def validateDescriptor (declaration : RetainedRuntimeInputDeclaration) (file : RuntimeFile) : Except Fault Unit :=
  match file.metadata, file.flags with
  | some metadata, some flags =>
      require (metadata.isFile = true ∧ metadata.links ≤ 1 ∧ metadata.length = declaration.expectedBytes ∧
        metadata.device = declaration.identity.device ∧ metadata.inode = declaration.identity.inode ∧ flags = false ∧
        file.digest declaration.expectedBytes = .ok declaration.expectedDigest) (.failure .runtimeInputObjectMismatch)
  | _, _ => .error (.failure .runtimeInputObjectMismatch)

/-- A control message. Only one of the input kind with one descriptor is looked at further. -/
structure InputMessage where
  describesInput : Bool
  payload : Bytes
  file : RuntimeFile

/-- The loop over the declared count. Both receivers run it, with their own check against the member before. -/
def receiveEach (follows : Option RetainedRuntimeInputMember → RetainedRuntimeInputDeclaration → Bool) :
    Nat → Nat → Option RetainedRuntimeInputMember → List InputMessage → Except Fault (List RetainedRuntimeInputMember)
  | 0, _, _, _ => .ok []
  | _ + 1, _, _, [] => .error (.failure .invalidLaunch)
  | count + 1, index, last, message :: messages => do
      require (message.describesInput = true) (.failure .invalidLaunch)
      let declaration ← decodeDeclaration message.payload index
      require (follows last declaration = true) (.failure .invalidLaunch)
      validateDescriptor declaration message.file
      let others ← receiveEach follows count (index + 1) (some ⟨declaration, message.file⟩) messages
      .ok (⟨declaration, message.file⟩ :: others)

def receiveInputs (follows : Option RetainedRuntimeInputMember → RetainedRuntimeInputDeclaration → Bool) (expected : ManagedInputHeader)
    (messages : List InputMessage) : Except Fault (List RetainedRuntimeInputMember) := do
  let inputs ← receiveEach follows expected.count 0 none messages
  validateComplete expected (inputs.map (·.declaration))
  .ok inputs

/-- The first helper also compares each alias with the one before as it arrives. -/
def receiveManagedLaunch : ManagedInputHeader → List InputMessage → Except Fault (List RetainedRuntimeInputMember) :=
  receiveInputs fun last declaration => last.all fun member => encode member.declaration.relativeAlias < encode declaration.relativeAlias

def receiveStageInputs : ManagedInputHeader → List InputMessage → Except Fault (List RetainedRuntimeInputMember) :=
  receiveInputs fun _ _ => true

/-- One message for each member, in order, with its index. -/
def sendEach : Nat → List RetainedRuntimeInputMember → Except Fault (List InputMessage)
  | _, [] => .ok []
  | index, member :: members => do
      let payload ← encodeDeclaration index member.declaration
      let messages ← sendEach (index + 1) members
      .ok (⟨true, payload, member.file⟩ :: messages)

end ManagedInput

end Retonr.RuntimeIsolation
