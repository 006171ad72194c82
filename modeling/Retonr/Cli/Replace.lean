import Retonr.Lib.Crash
import Retonr.Lib.Except
import Retonr.Lib.Table
import Retonr.Lib.Text

/-! In-place replacement of a source file, with a backup and a staging file beside it.
Every call of the file system is one call of the program, on the platform that supports it. -/

namespace Retonr
open Text Crash Retonr.Except

inductive CommandName where
  | cli
  | check
  | rewrite
  | inspect
  | modelImport
  | modelImportSet
  | modelList
  | modelInspect
  | modelDeviceEvidence
  | modelInventory
  | modelInventorySet
  | modelPendingOperations
  | modelMigrate
  | modelReconcile
  | modelReconcileSet
  | modelRemove
  | modelRecoverRemoval
  | modelRemoveSet
  | modelRecoverSetRemoval
  | version
  | doctor
  | completions
  | man
  | lint
  | tui

inductive ErrorCategory where
  | usage
  | policy
  | compatibility
  | operational

inductive ErrorCode where
  | invalidInvocation
  | inputUnreadable
  | resourceLimitExceeded
  | concurrentModification
  | outputExists
  | operationalFailure

structure ErrorBody where
  category : ErrorCategory
  code : ErrorCode
  retryable : Bool

structure RunFailure where
  command : CommandName
  body : ErrorBody
  exitCode : Nat
  message : Text

def exitOperational : Nat := 1
def exitUsage : Nat := 2
def exitPolicy : Nat := 3
def exitCompatibility : Nat := 4

/-- Why a coherent bounded read failed. -/
inductive ReadError where
  | changed
  | invalidInput
  | invalidData
  | notFound
  | other

namespace RunFailure

def operational (command : CommandName) : RunFailure :=
  ⟨command, ⟨.operational, .operationalFailure, true⟩, exitOperational, "operation failed".toList⟩

def concurrentModification (command : CommandName) : RunFailure :=
  ⟨command, ⟨.operational, .concurrentModification, true⟩, exitOperational, "source changed during the operation".toList⟩

def inputRead (command : CommandName) : ReadError → RunFailure
  | .changed => concurrentModification command
  | .invalidInput => ⟨command, ⟨.usage, .inputUnreadable, false⟩, exitUsage, "input must be a regular file".toList⟩
  | .invalidData =>
      ⟨command, ⟨.compatibility, .resourceLimitExceeded, false⟩, exitCompatibility, "input exceeds the supported byte limit".toList⟩
  | .notFound | .other =>
      ⟨command, ⟨.operational, .inputUnreadable, false⟩, exitOperational, "input could not be read".toList⟩

def outputExistsFor (command : CommandName) : RunFailure :=
  ⟨command, ⟨.policy, .outputExists, false⟩, exitPolicy, "output destination already exists".toList⟩

end RunFailure

structure Path where
  parent : Bytes
  fileName : Option Bytes
  deriving DecidableEq

structure RegularFile where
  content : Bytes
  (inode links uid gid mode : Nat)
  extendedAttributes : Bool

inductive Node where
  | file (file : RegularFile)
  | symlink
  | other

/-- The entries of the directories in use. A new file belongs to the user that creates it and has the
access attributes its directory hands down. -/
structure FileSystem where
  entries : Table Path Node
  directParent : Bytes → Bool
  (user group : Nat)
  inheritsAttributes : Bool
  nextInode : Nat

namespace FileSystem

def find (fs : FileSystem) (path : Path) : Option Node := fs.entries.find path

def put (fs : FileSystem) (path : Path) (node : Node) : FileSystem := { fs with entries := fs.entries.upsert path node }

def remove (fs : FileSystem) (path : Path) : FileSystem :=
  { fs with entries := fs.entries.deleteWhere fun key _ => key == path }

/-- Creates an empty file where there is no entry yet. -/
def create (fs : FileSystem) (path : Path) (mode : Nat) : FileSystem :=
  { fs.put path (.file ⟨[], fs.nextInode, 1, fs.user, fs.group, mode, fs.inheritsAttributes⟩) with nextInode := fs.nextInode + 1 }

def modify (fs : FileSystem) (path : Path) (change : RegularFile → RegularFile) : FileSystem :=
  match fs.find path with
  | some (.file file) => fs.put path (.file (change file))
  | _ => fs

/-- The regular file that an open which follows no link reaches. -/
def openFile (fs : FileSystem) (path : Path) : Option (Option RegularFile) :=
  match fs.find path with
  | some (.file file) => some (some file)
  | some .other => some none
  | some .symlink | none => none

end FileSystem

def usage (command : CommandName) (message : String) : RunFailure :=
  ⟨command, ⟨.usage, .invalidInvocation, false⟩, exitUsage, message.toList⟩

namespace Replace

abbrev FileCall := Program FileSystem RunFailure

def backupSuffix : Text := ".retonr-backup".toList
def stagingSuffix : Text := ".retonr-staging".toList

/-- Result of a completed in-place commit. -/
inductive InPlaceOutcome where
  | unchanged
  | replaced (backupName : Text)

def sibling (source : Path) (suffix : Text) (command : CommandName) : Except RunFailure Path :=
  match source.fileName.bind fun name => (decode name).toOption with
  | none => .error (usage command "in-place requires a regular file")
  | some name =>
      if name.isEmpty ∨ name = ['.'] ∨ name = ['.', '.'] then .error (usage command "in-place requires a regular file")
      else .ok ⟨source.parent, some (encode (name ++ suffix))⟩

def hardLinkUsage (command : CommandName) : RunFailure :=
  usage command "in-place requires a regular file without hard-link aliases"

def requireRegularFile (path : Path) (command : CommandName) : FileCall Unit :=
  Program.query (.operational command) fun fs =>
    match fs.find path with
    | none => .error (.inputRead command .notFound)
    | some (.file file) => require (file.links = 1) (hardLinkUsage command)
    | some _ => .error (usage command "in-place requires a regular file")

/-- Reads a direct regular file that has one link and at most `limit` bytes. -/
def readDirectUnaliasedBounded (path : Path) (limit : Nat) : Program FileSystem ReadError Bytes :=
  Program.query .other fun fs => do
    require (path.fileName.isSome = true ∧ fs.directParent path.parent = true) .invalidInput
    match fs.find path with
    | none => .error .notFound
    | some .symlink => .error .other
    | some .other => .error .invalidInput
    | some (.file file) => do
        require (file.links = 1) .invalidInput
        require (file.content.length ≤ limit) .invalidData
        .ok file.content

def requireOriginalBytes (source : Path) (original : Bytes) (command : CommandName) : FileCall Unit := do
  let current ← (readDirectUnaliasedBounded source (original.length + 1)).mapError fun _ => .concurrentModification command
  Program.require (current = original) (.concurrentModification command)

/-- Rejects any entry, a dangling link included, at a planned new path. -/
def requireUnoccupiedPath (path : Path) (command : CommandName) : FileCall Unit :=
  Program.query (.operational command) fun fs => require (fs.find path = none) (.outputExistsFor command)

/-- The access policy of the source, captured before any document-bearing file exists. -/
structure Protection where
  (inode uid gid mode : Nat)

def unsupported (command : CommandName) : RunFailure :=
  usage command
    "in-place access protection is unsupported for this platform or file metadata; use a separately reviewed output path"

/-- Opens for reading without following a link; what is no regular file has no metadata of one. -/
def openDirect (path : Path) (command : CommandName) : FileCall Unit :=
  Program.query (.operational command) fun fs => require ((fs.openFile path).isSome = true) (.operational command)

def metadata (path : Path) (command : CommandName) : FileCall (Option RegularFile) :=
  Program.query (.operational command) fun fs => .ok (fs.openFile path).join

/-- Access lists, capabilities and security labels are refused, those handed down by the directory included. -/
def noExtendedAttributes (path : Path) (command : CommandName) : FileCall Unit :=
  Program.query (unsupported command) fun fs =>
    require (((fs.openFile path).join.map RegularFile.extendedAttributes).getD true = false) (unsupported command)

namespace Protection

def capture (source : Path) (command : CommandName) : FileCall Protection := do
  openDirect source command
  let found ← metadata source command
  noExtendedAttributes source command
  match found with
  | none => Program.raise (unsupported command)
  | some file => do
      Program.require (file.links = 1 ∧ file.mode &&& 0o7000 = 0) (unsupported command)
      pure ⟨file.inode, file.uid, file.gid, file.mode⟩

def verifyFile (protection : Protection) (path : Path) (command : CommandName) : FileCall Unit := do
  let found ← metadata path command
  noExtendedAttributes path command
  Program.require (∃ file ∈ found, file.links = 1 ∧ file.uid = protection.uid ∧ file.gid = protection.gid ∧
    file.mode &&& 0o7777 = protection.mode &&& 0o7777) (unsupported command)

/-- Creates the file with restricted access, gives it the source's owner and mode, and only then writes the document. -/
def write (protection : Protection) (path : Path) (bytes : Bytes) (command : CommandName) : FileCall Unit := do
  Program.atomic (.operational command) fun fs =>
    if (fs.find path).isSome then .error (.outputExistsFor command) else .ok ((), fs.create path 0o600)
  noExtendedAttributes path command
  Program.atomic (unsupported command) fun fs =>
    .ok ((), fs.modify path fun file => { file with uid := protection.uid, gid := protection.gid })
  Program.atomic (unsupported command) fun fs =>
    .ok ((), fs.modify path fun file => { file with mode := protection.mode &&& 0o777 })
  protection.verifyFile path command
  -- A write that is cut short has appended a part of the bytes.
  Program.call (.operational command)
    (fun reach fs => fs.modify path fun file => { file with content := file.content ++ bytes.take reach })
    (fun fs => .ok ((), fs.modify path fun file => { file with content := file.content ++ bytes }))
  Program.query (.operational command) fun _ => .ok ()

def verifySource (protection : Protection) (path : Path) (command : CommandName) : FileCall Unit := do
  openDirect path command
  let found ← metadata path command
  Program.require (∃ file ∈ found, file.inode = protection.inode) (.concurrentModification command)
  protection.verifyFile path command

def verifyPath (protection : Protection) (path : Path) (command : CommandName) : FileCall Unit := do
  openDirect path command
  protection.verifyFile path command

end Protection

/-- Renames the staging file over the source. -/
def install (source staging : Path) (command : CommandName) : FileCall Unit :=
  Program.atomic (.operational command) fun fs =>
    match fs.find staging, fs.find source with
    | none, _ | _, some .other => .error (.operational command)
    | some node, _ => .ok ((), (fs.remove staging).put source node)

def installVerified (source staging : Path) (original accepted : Bytes) (command : CommandName) : FileCall Unit := do
  requireRegularFile source command
  requireOriginalBytes source original command
  let staged ← (readDirectUnaliasedBounded staging (accepted.length + 1)).mapError fun _ => .concurrentModification command
  Program.require (staged = accepted) (.concurrentModification command)
  install source staging command

/-- Reads a path back and requires exactly the accepted bytes there. -/
def requireAcceptedBytes (path : Path) (accepted : Bytes) (command : CommandName) : FileCall Unit := do
  let current ← (readDirectUnaliasedBounded path (accepted.length + 1)).mapError fun _ => .operational command
  Program.require (current = accepted) (.operational command)

/-- Writes accepted bytes according to the in-place commit protocol. -/
def commit (source : Path) (original accepted : Bytes) (command : CommandName) : FileCall InPlaceOutcome := do
  requireRegularFile source command
  requireOriginalBytes source original command
  if original = accepted then
    pure .unchanged
  else do
    let backupPath ← Program.done (sibling source backupSuffix command)
    let stagingPath ← Program.done (sibling source stagingSuffix command)
    requireUnoccupiedPath backupPath command
    requireUnoccupiedPath stagingPath command
    let protection ← Protection.capture source command
    protection.write backupPath original command
    protection.write stagingPath accepted command
    requireAcceptedBytes stagingPath accepted command
    protection.verifySource source command
    protection.verifyPath backupPath command
    protection.verifyPath stagingPath command
    installVerified source stagingPath original accepted command
    protection.verifyPath source command
    requireAcceptedBytes source accepted command
    match backupPath.fileName.bind fun name => (decode name).toOption with
    | none => Program.raise (usage command "in-place requires a regular file")
    | some backupName => pure (.replaced backupName)

end Replace

end Retonr
