import Retonr.Lib.Except
import Retonr.Lib.Table
import Retonr.Types.Document
import Retonr.Types.TextSafety

/-! The scan of an outer Cargo source archive. Opening the archive and reading its headers is
the tar library's part: an entry is given with the path, the header fields and the reads it
would answer with, each of which may fail. -/

namespace Retonr.CargoSource
open Text Framing Retonr.Except

inductive CargoSourceClosureError where
  | invalidArchive
  | noncanonicalArchive
  | unsafeArchiveEntry
  | nonportableArchivePath
  | archiveRootMismatch
  | archiveQuotaExceeded

/-- The ceilings an archive scan reads. -/
structure CargoSourceClosureLimits where
  (maximumArchiveEntries maximumArchiveBytes maximumPathBytes maximumTotalPathBytes maximumCapturedFileBytes : UInt64)

inductive EntryType where
  | regular
  | directory
  | gnuLongName
  | other (code : UInt8)
  deriving DecidableEq

/-- The header fields; one that cannot be read is missing. -/
structure Header where
  isGnu : Bool
  entryType : EntryType
  size : Option UInt64
  mode : Option UInt32
  (usernameBytes groupnameBytes : Option Bytes)
  (uid gid mtime : Option UInt64)

/-- The answers to successive reads, and whether the read after them fails. -/
structure Reader where
  reads : List Bytes
  fails : Bool

structure Entry where
  pathBytes : Bytes
  header : Header
  reader : Reader

structure FileFact where
  digest : Digest
  size : UInt64

structure TreeSnapshot where
  captured : Table Text Bytes
  files : Table Text FileFact
  id : Digest

def sourceDateEpoch : UInt64 := 1725000000

def checkedCount (count maximum : Nat) : Except CargoSourceClosureError Nat := do
  require (count + 1 < usizeLimit ∧ count + 1 ≤ maximum) .archiveQuotaExceeded
  pure (count + 1)

/-- What is read up to the first empty answer. -/
def readToEnd (fails : Bool) : List Bytes → Option Bytes
  | [] => if fails then none else some []
  | [] :: _ => some []
  | read :: reads => (readToEnd fails reads).map (read ++ ·)

def reservedName (value : Text) : Bool :=
  eqIgnoreAsciiCase value "con".toList || eqIgnoreAsciiCase value "prn".toList || eqIgnoreAsciiCase value "aux".toList ||
    eqIgnoreAsciiCase value "nul".toList ||
      value.length == 4 && (eqIgnoreAsciiCase (value.take 3) "com".toList || eqIgnoreAsciiCase (value.take 3) "lpt".toList) &&
        (value.drop 3).all fun digit => decide ('1' ≤ digit) && decide (digit ≤ '9')

def portableComponent (component : Text) : Bool :=
  !(component.isEmpty || component == ".".toList || component == "..".toList || component.head? == some ' ' ||
    component.getLast? == some ' ' || component.getLast? == some '.' || component.any (":<>\x22|?*".toList.contains ·) ||
      reservedName ((component.splitOn '.').head?.getD component))

def validatePortableRelativePath (path : Text) (maximum : Nat) : Except CargoSourceClosureError Unit := do
  require (¬(path.isEmpty || decide (maximum < byteLen path) || path.any (fun char => 128 ≤ char.val) || path.head? == some '/' ||
    path.getLast? == some '/' || path.contains '\\' || path.any TextSafety.isControl)) .nonportableArchivePath
  (path.splitOn '/').forM fun component => require (portableComponent component) .nonportableArchivePath

def validatePath (bytes : Bytes) (root : Text) (maximum : Nat) : Except CargoSourceClosureError Text := do
  let path ← (decode bytes).mapError fun _ => .nonportableArchivePath
  validatePortableRelativePath path maximum
  require (path = root ∨ (root ++ ['/']).isPrefixOf path) .archiveRootMismatch
  pure path

def validateRoot (root : Text) : Except CargoSourceClosureError Unit := do
  validatePortableRelativePath root 64
  require ('/' ∉ root) .archiveRootMismatch

def stripRoot (path root : Text) : Except CargoSourceClosureError Text :=
  if (root ++ ['/']).isPrefixOf path ∧ path.drop (root.length + 1) ≠ [] then .ok (path.drop (root.length + 1))
  else .error .archiveRootMismatch

/-- A number in the header that has to be readable. -/
def readField {α : Type} (field : Option α) : Except CargoSourceClosureError α :=
  match field with
  | some value => .ok value
  | none => .error .invalidArchive

def validateHeader (header : Header) (entryType : EntryType) : Except CargoSourceClosureError Unit := do
  let size ← readField header.size
  let mode ← readField header.mode
  require (header.isGnu ∧ header.usernameBytes = some [] ∧ header.groupnameBytes = some []) .noncanonicalArchive
  let uid ← readField header.uid
  require (uid = 0) .noncanonicalArchive
  let gid ← readField header.gid
  require (gid = 0) .noncanonicalArchive
  let mtime ← readField header.mtime
  require (mtime = sourceDateEpoch) .noncanonicalArchive
  require (¬(entryType = .directory ∧ (size ≠ 0 ∨ mode ≠ 0o755))) .noncanonicalArchive
  require (¬(entryType = .regular ∧ ¬(mode = 0o644 ∨ mode = 0o755))) .noncanonicalArchive

/-- The bytes hashed into the tree identity, in the order of the paths. -/
def treeIdBytes (files : Table Text FileFact) : Bytes :=
  encode "retonr:cargo-source-tree:v1\x00".toList ++
    (files.rows.insertionSort fun left right => encode left.1 ≤ encode right.1).flatMap fun row =>
      sized (encode row.1) ++ (bigEndian 8 row.2.size.toNat ++ sized (encode row.2.digest.asStr))

def treeId (files : Table Text FileFact) : Digest := Digest.sha256 (treeIdBytes files)

structure ScanState where
  captured : Table Text Bytes
  directories : List Text
  files : Table Text FileFact
  previous : Option Bytes
  portableKeys : List Text
  root : Text
  (totalBytes totalPathBytes : Nat)

namespace ScanState

def new (root : Text) : ScanState := ⟨.empty, [], .empty, none, [], root, 0, 0⟩

def validateParentAndRoot (state : ScanState) (path : Text) (entryType : EntryType) : Except CargoSourceClosureError Unit := do
  require (¬(state.previous.isSome ∧ (state.files.rows = [] ∧ state.directories = []) ∧
    (path ≠ state.root ∨ entryType ≠ .directory))) .archiveRootMismatch
  if path ≠ state.root then
    match rsplitOnce ['/'] path with
    | none => .error .archiveRootMismatch
    | some (parent, _) => require (parent ∈ state.directories) .noncanonicalArchive
  else pure ()

/-- Checks the path and the header, and books the path. -/
def beginEntry (state : ScanState) (entry : Entry) (limits : CargoSourceClosureLimits) :
    Except CargoSourceClosureError (Text × EntryType × ScanState) := do
  let count := min (state.files.rows.length + state.directories.length) (usizeLimit - 1)
  let _ ← checkedCount count limits.maximumArchiveEntries.toNat
  let path ← validatePath entry.pathBytes state.root limits.maximumPathBytes.toNat
  require (toAsciiLowercase path ∉ state.portableKeys) .unsafeArchiveEntry
  let totalPathBytes := state.totalPathBytes + entry.pathBytes.length
  require (totalPathBytes < usizeLimit ∧ totalPathBytes ≤ limits.maximumTotalPathBytes.toNat) .archiveQuotaExceeded
  require (∀ previous ∈ state.previous, previous < entry.pathBytes) .noncanonicalArchive
  let booked := { state with portableKeys := toAsciiLowercase path :: state.portableKeys, totalPathBytes, previous := some entry.pathBytes }
  validateHeader entry.header entry.header.entryType
  booked.validateParentAndRoot path entry.header.entryType
  pure (path, entry.header.entryType, booked)

/-- Books one entry. What a file holds is left to the visitor, which may keep a state of its own. -/
def observeWith {σ : Type} (visit : σ → Text → UInt64 → Reader → Except CargoSourceClosureError (FileFact × σ))
    (limits : CargoSourceClosureLimits) (state : ScanState) (visitor : σ) (entry : Entry) :
    Except CargoSourceClosureError (ScanState × σ) := do
  let (path, entryType, state) ← state.beginEntry entry limits
  if entryType = .directory then
    pure ({ state with directories := state.directories.insert path }, visitor)
  else
    require (entryType = .regular ∧ (state.files.find path).isNone) .unsafeArchiveEntry
    let declared ← readField entry.header.size
    let totalBytes := state.totalBytes + declared.toNat
    require (totalBytes < 2 ^ 64 ∧ totalBytes ≤ limits.maximumArchiveBytes.toNat) .archiveQuotaExceeded
    let relative ← stripRoot path state.root
    let (fact, visitor) ← visit visitor relative declared entry.reader
    require (fact.size = declared) .invalidArchive
    pure ({ state with totalBytes, files := state.files.upsert relative fact }, visitor)

def finish (state : ScanState) : Except CargoSourceClosureError TreeSnapshot := do
  require (state.root ∈ state.directories ∧ state.files.rows ≠ []) .invalidArchive
  pure ⟨state.captured, state.files, treeId state.files⟩

end ScanState

/-- The read loop: everything read so far, or a failure as soon as it is more than declared. -/
def hashReads (declared : Nat) (fails : Bool) : Bytes → List Bytes → Except CargoSourceClosureError Bytes
  | content, [] => if fails then .error .invalidArchive else .ok content
  | content, [] :: _ => .ok content
  | content, read :: reads =>
      if content.length + read.length < 2 ^ 64 ∧ content.length + read.length ≤ declared then
        hashReads declared fails (content ++ read) reads
      else .error .invalidArchive

def hashEntry (reader : Reader) (declared : UInt64) (retain : Bool) (limits : CargoSourceClosureLimits) :
    Except CargoSourceClosureError (FileFact × Option Bytes) := do
  require (¬(retain = true ∧ limits.maximumCapturedFileBytes < declared)) .archiveQuotaExceeded
  let content ← hashReads declared.toNat reader.fails [] reader.reads
  require (content.length = declared.toNat) .invalidArchive
  pure (⟨Digest.sha256 content, UInt64.ofNat content.length⟩, if retain then some content else none)

/-- Books one entry and keeps the bytes of the files the caller wants. -/
def ScanState.observe (capture : Text → Bool) (limits : CargoSourceClosureLimits) (state : ScanState) (entry : Entry) :
    Except CargoSourceClosureError ScanState := do
  let (state, retained) ← state.observeWith (fun retained relative declared reader => do
    let (fact, bytes) ← hashEntry reader declared (capture relative) limits
    pure (fact, (bytes.map fun bytes => (relative, bytes)).or retained)) limits none entry
  match retained with
  | some (relative, bytes) => pure { state with captured := state.captured.upsert relative bytes }
  | none => pure state

def scanEntriesWith {σ : Type} (visit : σ → Text → UInt64 → Reader → Except CargoSourceClosureError (FileFact × σ))
    (entries : List (Option Entry)) (root : Text) (limits : CargoSourceClosureLimits) (visitor : σ) :
    Except CargoSourceClosureError (TreeSnapshot × σ) := do
  validateRoot root
  let (state, visitor) ← entries.foldlM (fun (state, visitor) entry => do
    let some entry := entry | .error .invalidArchive
    state.observeWith visit limits visitor entry) (ScanState.new root, visitor)
  let snapshot ← state.finish
  pure (snapshot, visitor)

def scanCanonicalEntries (entries : List (Option Entry)) (root : Text) (limits : CargoSourceClosureLimits) (capture : Text → Bool) :
    Except CargoSourceClosureError TreeSnapshot := do
  validateRoot root
  let state ← entries.foldlM (fun state entry => do
    let some entry := entry | .error .invalidArchive
    state.observe capture limits entry) (ScanState.new root)
  state.finish

end Retonr.CargoSource
