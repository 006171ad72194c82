import Retonr.Lib.Slice
import Retonr.RuntimeIsolation.BuildOutput

/-! The payloads of the build control channel: what the build is given, and what it reports with the
captured start of its two output streams. -/

namespace Retonr.RuntimeIsolation
open Text Framing Slice Retonr.Except

def maximumStartupStreamBytes : Nat := 32 * 1024

/-- The retained start of the two standard streams of a process, and whether more was drained. -/
structure ManagedStartupOutput where
  (standardOutput standardError : Bytes)
  (standardOutputTruncated standardErrorTruncated : Bool)

namespace Startup

def captureHeaderBytes : Nat := 9

def flags (output : ManagedStartupOutput) : UInt8 := output.standardOutputTruncated.toUInt8 ||| (output.standardErrorTruncated.toUInt8 <<< 1)

def encode (output : ManagedStartupOutput) : Option Bytes :=
  if output.standardOutput.length < 2 ^ 32 ∧ output.standardError.length < 2 ^ 32 then
    some (bigEndian 4 output.standardOutput.length ++ bigEndian 4 output.standardError.length ++ [flags output] ++ output.standardOutput ++
      output.standardError)
  else none

def decode (bytes : Bytes) : Reading ManagedStartupOutput := do
  require (captureHeaderBytes ≤ bytes.length) .refused
  let stdout := bigEndianNat (← range bytes 0 4)
  let stderr := bigEndianNat (← range bytes 4 8)
  let flags ← index bytes 8
  require (flags &&& ~~~0b11 = 0 ∧ stdout ≤ maximumStartupStreamBytes ∧ stderr ≤ maximumStartupStreamBytes) .refused
  let stdoutEnd ← checkedAdd captureHeaderBytes stdout
  let stderrEnd ← checkedAdd stdoutEnd stderr
  require (stderrEnd = bytes.length) .refused
  let stderrStart ← add captureHeaderBytes stdout
  let output ← range bytes captureHeaderBytes stderrStart
  let error ← indexFrom bytes stderrStart
  .ok ⟨output, error, flags &&& 1 != 0, flags &&& 2 != 0⟩

end Startup

inductive ControlledBuildProcessStatus where
  | success
  | exitCode (code : Int32)
  | signal (signal : Int32)
  deriving DecidableEq

structure ControlledBuildOutput where
  status : ControlledBuildProcessStatus
  streams : ManagedStartupOutput
  tree : Option ControlledBuildOutputTree

namespace BuildProtocol

def resultHeaderBytes : Nat := 7

def treeBytes : Nat := 80

def inputCountBytes : Nat := 5

def inputPathHeaderBytes : Nat := 2

def inputDeclarationSuffixBytes : Nat := 8 + 64

def maximumInputPathBytes : Nat := 4096

def maximumControlledBuildInputFiles : Nat := 1024

def maxReceivedDescriptors : Nat := 3

structure InputDeclaration where
  relativePath : Text
  expectedDigest : Digest
  expectedBytes : UInt64

def encodeInputCount (count : Nat) : Option Bytes :=
  if count = 0 ∨ maximumControlledBuildInputFiles < count then none else some (1 :: bigEndian 4 count)

def decodeInputCount (payload : Bytes) : Reading Nat := do
  require (payload.length = inputCountBytes) .refused
  let version ← index payload 0
  require (version = 1) .refused
  let count := bigEndianNat (← range payload 1 5)
  require (0 < count ∧ count ≤ maximumControlledBuildInputFiles) .refused
  .ok count

def validInputPath (value : Text) : Bool :=
  !value.isEmpty
    && decide (byteLen value ≤ maximumInputPathBytes)
    && value.all (fun char => char.val < 128)
    && value.head? != some '/'
    && value.getLast? != some '/'
    && !value.contains '\\'
    && (value.splitOn '/').all portablePart

def encodeInputDeclaration (declaration : InputDeclaration) : Option Bytes :=
  let path := encode declaration.relativePath
  if validInputPath declaration.relativePath = true ∧ path.length < 2 ^ 16 then
    some (bigEndian 2 path.length ++ (path ++ (bigEndian 8 declaration.expectedBytes.toNat ++ encode declaration.expectedDigest.asStr)))
  else none

def encodeInputDeclarations (declarations : List InputDeclaration) : Option Bytes :=
  if declarations = [] ∨ maxReceivedDescriptors < declarations.length then none
  else do
    let parts ← declarations.mapM encodeInputDeclaration
    some (2 :: UInt8.ofNat declarations.length :: parts.flatten)

def digestOf (text : Text) : Reading Digest :=
  match Digest.fromSha256Hex text with
  | some digest => .ok digest
  | none => .error .refused

/-- One round of the loop: the declaration at the offset, and the offset behind it. -/
def decodeInputDeclaration (payload : Bytes) (offset : Nat) : Reading (InputDeclaration × Nat) := do
  let length := bigEndianNat (← get payload offset (← add offset 2))
  let pathStart ← checkedAdd offset 2
  let pathEnd ← checkedAdd pathStart length
  let path ← text (← get payload pathStart pathEnd)
  require (validInputPath path = true) .refused
  let suffixEnd ← checkedAdd pathEnd inputDeclarationSuffixBytes
  let digestStart ← add pathEnd 8
  let bytes := bigEndianNat (← get payload pathEnd digestStart)
  let digest ← digestOf (← text (← get payload digestStart suffixEnd))
  .ok (⟨path, digest, UInt64.ofNat bytes⟩, suffixEnd)

def decodeEach (payload : Bytes) : Nat → Nat → Reading (List InputDeclaration × Nat)
  | 0, offset => .ok ([], offset)
  | count + 1, offset => do
      let (declaration, offset) ← decodeInputDeclaration payload offset
      let (declarations, offset) ← decodeEach payload count offset
      .ok (declaration :: declarations, offset)

def decodeInputDeclarations (payload : Bytes) : Reading (List InputDeclaration) := do
  require (inputPathHeaderBytes ≤ payload.length) .refused
  let version ← index payload 0
  require (version = 2) .refused
  let count ← index payload 1
  require (count ≠ 0 ∧ count.toNat ≤ maxReceivedDescriptors) .refused
  let (declarations, offset) ← decodeEach payload count.toNat inputPathHeaderBytes
  require (offset = payload.length) .refused
  .ok declarations

def statusFields : ControlledBuildProcessStatus → Option (UInt8 × Int32)
  | .success => some (0, 0)
  | .exitCode code => if 0 < code then some (1, code) else none
  | .signal signal => if 0 < signal then some (2, signal) else none

def decodeStatus (kind : UInt8) (code : Int32) : Reading ControlledBuildProcessStatus :=
  if kind = 0 ∧ code = 0 then .ok .success
  else if kind = 1 ∧ 0 < code then .ok (.exitCode code)
  else if kind = 2 ∧ 0 < code then .ok (.signal code)
  else .error .refused

def codeBytes (code : Int32) : Bytes := bigEndian 4 code.toUInt32.toNat

def codeOf (bytes : Bytes) : Int32 := (UInt32.ofNat (bigEndianNat bytes)).toInt32

def encodeTree (tree : ControlledBuildOutputTree) : Bytes :=
  encode tree.digest.asStr ++ (bigEndian 4 tree.entryCount ++ (bigEndian 4 tree.regularFileCount ++ bigEndian 8 tree.totalFileBytes))

/-- A tree goes with success, and with nothing else. -/
def expectedTree (output : ControlledBuildOutput) : Option (Option ControlledBuildOutputTree) :=
  match output.status, output.tree with
  | .success, some tree => some (some tree)
  | .exitCode _, none | .signal _, none => some none
  | _, _ => none

def encodeFinished (output : ControlledBuildOutput) : Option Bytes := do
  let (kind, code) ← statusFields output.status
  let tree ← expectedTree output
  let streams ← Startup.encode output.streams
  some (2 :: kind :: (codeBytes code ++ (tree.isSome.toUInt8 :: ((tree.map encodeTree).getD [] ++ streams))))

def encodeProcessFinished (output : ControlledBuildOutput) : Option Bytes :=
  if output.tree.isSome then none
  else do
    let (kind, code) ← statusFields output.status
    let streams ← Startup.encode output.streams
    some (1 :: kind :: (codeBytes code ++ streams))

def decodeProcessFinished (payload : Bytes) : Reading ControlledBuildOutput := do
  require (6 ≤ payload.length) .refused
  let version ← index payload 0
  require (version = 1) .refused
  let code := codeOf (← range payload 2 6)
  let status ← decodeStatus (← index payload 1) code
  let streams ← Startup.decode (← indexFrom payload 6)
  .ok ⟨status, streams, none⟩

def decodeTree (bytes : Bytes) : Reading ControlledBuildOutputTree := do
  let digest ← digestOf (← text (← range bytes 0 64))
  let entryCount := bigEndianNat (← range bytes 64 68)
  let regularFileCount := bigEndianNat (← range bytes 68 72)
  let totalFileBytes := bigEndianNat (← range bytes 72 80)
  (ControlledBuildOutputTree.fromParts digest entryCount regularFileCount totalFileBytes).mapError fun _ => .refused

def decodeFinished (payload : Bytes) : Reading ControlledBuildOutput := do
  require (resultHeaderBytes ≤ payload.length) .refused
  let version ← index payload 0
  require (version = 2) .refused
  let code := codeOf (← range payload 2 6)
  let status ← decodeStatus (← index payload 1) code
  let marker ← index payload 6
  require (marker = 0 ∨ marker = 1) .refused
  require (marker = 1 ↔ status = .success) .refused
  if marker = 1 then do
    require (resultHeaderBytes + treeBytes ≤ payload.length) .refused
    let tree ← decodeTree (← range payload resultHeaderBytes (resultHeaderBytes + treeBytes))
    let streams ← Startup.decode (← indexFrom payload (resultHeaderBytes + treeBytes))
    .ok ⟨status, streams, some tree⟩
  else do
    let streams ← Startup.decode (← indexFrom payload resultHeaderBytes)
    .ok ⟨status, streams, none⟩

end BuildProtocol

end Retonr.RuntimeIsolation
