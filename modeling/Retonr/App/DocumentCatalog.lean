import Retonr.Adapter.TextAdapter
import Retonr.Lib.Except
import Retonr.Lib.Sorting

/-! Bounded discovery of documents below a selected directory: a walk with a stack of pending
directories, one budget of entries and one of bytes. -/

namespace Retonr.Catalog
open Text List Retonr.Except

def maxDocumentCatalogEntries : Nat := 4096

def maxDocumentCatalogDepth : Nat := 8

def maxDocumentCatalogBytes : Nat := 64 * 1024 * 1024

def maxCandidateCheckBytes : Nat := maxPlainTextBytes

structure DocumentCatalogLimits where
  (entries depth bytes : Nat)

/-- An entry of a directory with what its metadata says. A link is not followed, so nothing stands behind it. -/
inductive Entry where
  | file (name bytes : Bytes)
  | directory (name : Bytes) (entries : List Entry)
  | symlink (name : Bytes)
  | special (name : Bytes)
  | unreadable (name : Bytes)

def Entry.name : Entry → Bytes
  | .file name _ | .directory name _ | .symlink name | .special name | .unreadable name => name

mutual

def Entry.weight : Entry → Nat
  | .directory _ entries => 1 + weights entries
  | _ => 1

def weights : List Entry → Nat
  | [] => 0
  | entry :: entries => entry.weight + weights entries

end

inductive CatalogSkippedReason where
  | directory
  | depthLimit
  | malformedName
  | hidden
  | ignored
  | unreadable
  | symlink
  | nonRegular

structure CatalogSkippedEntry where
  relativePath : Option Text
  reason : CatalogSkippedReason

/-- A forward-slash relative path without an escaping component. -/
structure RelativeDocumentPath where
  asStr : Text
  separators : '\\' ∉ asStr ∧ '\x00' ∉ asStr
  components : ∀ component ∈ asStr.splitOn '/', component ≠ [] ∧ component ≠ ['.'] ∧ component ≠ ['.', '.']

def RelativeDocumentPath.new (value : Text) : Option RelativeDocumentPath :=
  if checked : ('\\' ∉ value ∧ '\x00' ∉ value) ∧ ∀ component ∈ value.splitOn '/', component ≠ [] ∧ component ≠ ['.'] ∧ component ≠ ['.', '.'] then
    some ⟨value, checked.1, checked.2⟩
  else none

inductive DocumentIntakeError where
  | cancelled
  | other

inductive DocumentCatalogError where
  | cancelled
  | resourceLimitExceeded
  | invalidPath
  | input
  | intake

variable {Observation : Type}

structure CatalogEntry (Observation : Type) where
  relativePath : RelativeDocumentPath
  observation : Observation

structure DocumentCatalog (Observation : Type) where
  documents : List (CatalogEntry Observation)
  skipped : List CatalogSkippedEntry

inductive Class where
  | document (relativePath : Text) (bytes : Bytes)
  | descend (relativePath : Text) (entries : List Entry)
  | skipped (entry : CatalogSkippedEntry)

def portableComponent (name : Text) : Bool :=
  !name.isEmpty && name != ['.'] && name != ['.', '.'] && !name.contains '/' && !name.contains '\\' && !name.contains '\x00'

def isIgnored (name : Text) : Bool := eqIgnoreAsciiCase name "target".toList || eqIgnoreAsciiCase name "node_modules".toList

def joinRelative (parent name : Text) : Text := if parent.isEmpty then name else parent ++ '/' :: name

def toStr (name : Bytes) : Option Text := (decode name).toOption

def classifyEntry (entry : Entry) (parent : Text) : Class :=
  match toStr entry.name with
  | none => .skipped ⟨none, .malformedName⟩
  | some name =>
      if portableComponent name = false then .skipped ⟨none, .malformedName⟩
      else
        let relativePath := joinRelative parent name
        if name.head? = some '.' then .skipped ⟨some relativePath, .hidden⟩
        else if isIgnored name = true then .skipped ⟨some relativePath, .ignored⟩
        else
          match entry with
          | .unreadable _ => .skipped ⟨some relativePath, .unreadable⟩
          | .symlink _ => .skipped ⟨some relativePath, .symlink⟩
          | .directory _ entries => .descend relativePath entries
          | .special _ => .skipped ⟨some relativePath, .nonRegular⟩
          | .file _ bytes => .document relativePath bytes

/-- The entries as the reader yields them, with room for so many. -/
def takeEntries (maximumEntries : Nat) : List Entry → List Entry → Except DocumentCatalogError (List Entry)
  | taken, [] => .ok taken
  | taken, entry :: listed =>
      if taken.length = maximumEntries then .error .resourceLimitExceeded else takeEntries maximumEntries (taken ++ [entry]) listed

def readSortedEntries (listed : List Entry) (maximumEntries : Nat) : Except DocumentCatalogError (List Entry) := do
  let entries ← takeEntries maximumEntries [] listed
  .ok (sortBy (compareOn Entry.name) entries)

/-- A pending directory. -/
structure Frame where
  entries : List Entry
  relative : Text
  depth : Nat

/-- How far a walk goes. -/
structure Scope where
  recursive : Bool
  limits : DocumentCatalogLimits

/-- What stays the same during one walk. A directory may list its entries in any order, and intake is
asked for its observation of every document. -/
structure Walker (Observation : Type) extends Scope where
  listing : Text → List Entry → List Entry
  inspectBytes : Text → Bytes → Except DocumentIntakeError Observation
  listed : ∀ relative entries, (listing relative entries).Perm entries

structure WalkState (Observation : Type) where
  pending : List Frame
  documents : List (CatalogEntry Observation)
  skipped : List CatalogSkippedEntry
  (seen inspectedBytes : Nat)

def readDirectoryBounded (bytes : Bytes) (limit : Nat) : Except DocumentCatalogError Bytes :=
  if bytes.length ≤ limit then .ok bytes else .error .input

def intakeError : DocumentIntakeError → DocumentCatalogError
  | .cancelled => .cancelled
  | .other => .intake

def relativeDocumentPath (value : Text) : Except DocumentCatalogError RelativeDocumentPath :=
  match RelativeDocumentPath.new value with
  | some path => .ok path
  | none => .error .invalidPath

namespace Walker

def inspectDocument (walker : Walker Observation) (state : WalkState Observation) (relativePath : Text) (bytes : Bytes) :
    Except DocumentCatalogError (WalkState Observation) := do
  let remainingBytes := walker.limits.bytes - state.inspectedBytes
  require (bytes.length ≤ remainingBytes) .resourceLimitExceeded
  let bytes ← readDirectoryBounded bytes (min remainingBytes maxCandidateCheckBytes)
  let observation ← (walker.inspectBytes relativePath bytes).mapError intakeError
  let inspectedBytes := state.inspectedBytes + bytes.length
  require (inspectedBytes < usizeLimit ∧ inspectedBytes ≤ walker.limits.bytes) .resourceLimitExceeded
  let path ← relativeDocumentPath relativePath
  .ok { state with inspectedBytes, documents := state.documents ++ [⟨path, observation⟩] }

def skip (state : WalkState Observation) (entry : CatalogSkippedEntry) : WalkState Observation :=
  { state with skipped := state.skipped ++ [entry] }

def descend (walker : Walker Observation) (frame : Frame) (state : WalkState Observation) (relativePath : Text) (entries : List Entry) :
    WalkState Observation :=
  let depth := min (frame.depth + 1) (usizeLimit - 1)
  if walker.recursive = false then skip state ⟨some relativePath, .directory⟩
  else if walker.limits.depth < depth then skip state ⟨some relativePath, .depthLimit⟩
  else { state with pending := ⟨entries, relativePath, depth⟩ :: state.pending }

def visitEntry (walker : Walker Observation) (frame : Frame) (state : WalkState Observation) (entry : Entry) :
    Except DocumentCatalogError (WalkState Observation) :=
  match classifyEntry entry frame.relative with
  | .document relativePath bytes => walker.inspectDocument state relativePath bytes
  | .descend relativePath entries => .ok (walker.descend frame state relativePath entries)
  | .skipped entry => .ok (skip state entry)

/-- One round of the walk, with the frame taken off the stack. -/
def visitFrame (walker : Walker Observation) (state : WalkState Observation) (frame : Frame) :
    Except DocumentCatalogError (WalkState Observation) := do
  let entries ← readSortedEntries (walker.listing frame.relative frame.entries) (walker.limits.entries - state.seen)
  let seen := min (state.seen + entries.length) (usizeLimit - 1)
  require (seen ≤ walker.limits.entries) .resourceLimitExceeded
  entries.foldlM (walker.visitEntry frame) { state with seen }

end Walker

def pendingWeight (pending : List Frame) : Nat := (pending.map fun frame => 1 + weights frame.entries).sum

theorem weights_perm {entries others : List Entry} (same : entries.Perm others) : weights entries = weights others := by
  induction same with
  | nil => rfl
  | cons entry _ ih => rw [weights, weights, ih]
  | swap first second rest =>
    simp only [weights]
    omega
  | trans _ _ first second => rw [first, second]

theorem eq_of_takeEntries {maximumEntries : Nat} {listed taken entries : List Entry}
    (read : takeEntries maximumEntries taken listed = .ok entries) : entries = taken ++ listed := by
  induction listed generalizing taken with
  | nil =>
    cases read
    rw [append_nil]
  | cons entry listed ih =>
    rw [takeEntries] at read
    split at read
    next => cases read
    next => rw [ih read, append_assoc, singleton_append]

section

variable {walker : Walker Observation} {state next : WalkState Observation} {frame : Frame}

theorem pending_inspectDocument {relativePath : Text} {bytes : Bytes} (visited : walker.inspectDocument state relativePath bytes = .ok next) :
    next.pending = state.pending := by
  simp only [Walker.inspectDocument, bind_eq_ok, Except.ok.injEq] at visited
  obtain ⟨-, -, -, -, -, -, -, -, -, -, rfl⟩ := visited
  rfl

theorem pendingWeight_visitEntry {entry : Entry} (visited : walker.visitEntry frame state entry = .ok next) :
    pendingWeight next.pending ≤ pendingWeight state.pending + entry.weight := by
  unfold Walker.visitEntry at visited
  split at visited
  next => rw [pending_inspectDocument visited]; exact Nat.le_add_right _ _
  next relativePath entries found =>
    have directory : entry.weight = 1 + weights entries := by
      unfold classifyEntry at found
      cases entry <;> (repeat' split at found) <;> simp_all [Entry.weight]
    cases visited
    unfold Walker.descend
    simp only [Walker.skip]
    split
    next => exact Nat.le_add_right _ _
    split
    next => exact Nat.le_add_right _ _
    next =>
      simp only [pendingWeight, map_cons, sum_cons, directory]
      omega
  next =>
    cases visited
    exact Nat.le_add_right _ _

theorem pendingWeight_foldlM {entries : List Entry} (visited : entries.foldlM (walker.visitEntry frame) state = .ok next) :
    pendingWeight next.pending ≤ pendingWeight state.pending + weights entries := by
  induction entries generalizing state with
  | nil =>
    cases visited
    exact Nat.le_add_right _ _
  | cons entry entries ih =>
    obtain ⟨middle, first, visited⟩ := bind_eq_ok.mp visited
    have here := pendingWeight_visitEntry first
    have later := ih visited
    rw [weights]
    omega

theorem pendingWeight_visitFrame (visited : walker.visitFrame state frame = .ok next) :
    pendingWeight next.pending < pendingWeight (frame :: state.pending) := by
  obtain ⟨entries, read, visited⟩ := bind_eq_ok.mp visited
  obtain ⟨-, -, visited⟩ := bind_eq_ok.mp visited
  obtain ⟨taken, listed, read⟩ := bind_eq_ok.mp read
  cases read
  have bound := pendingWeight_foldlM visited
  have whole := eq_of_takeEntries listed
  rw [weights_perm sortBy_perm, whole, nil_append, weights_perm (walker.listed _ _)] at bound
  simp only [pendingWeight, map_cons, sum_cons] at bound ⊢
  omega

end

def Walker.walkCancellable (walker : Walker Observation) (state : WalkState Observation) :
    Except DocumentCatalogError (List (CatalogEntry Observation) × List CatalogSkippedEntry) :=
  match pending : state.pending with
  | [] => .ok (state.documents, state.skipped)
  | frame :: rest =>
      match visited : walker.visitFrame { state with pending := rest } frame with
      | .error error => .error error
      | .ok next =>
          have _shrinks : pendingWeight next.pending < pendingWeight state.pending := by
            rw [pending]
            exact pendingWeight_visitFrame visited
          walker.walkCancellable next
termination_by pendingWeight state.pending

def compareDocuments : CatalogEntry Observation → CatalogEntry Observation → Ordering :=
  compareOn fun entry => encode entry.relativePath.asStr

def compareSkipped : CatalogSkippedEntry → CatalogSkippedEntry → Ordering :=
  compareLex (compareOn fun entry => entry.relativePath.map encode) (compareOn fun entry => entry.reason.ctorIdx)

/-- Discovery below a root. The caller's token is read as it stood when the call began. -/
def discover (walker : Walker Observation) (cancelled : Bool) (root : Entry) : Except DocumentCatalogError (DocumentCatalog Observation) := do
  require (cancelled = false) .cancelled
  require (walker.limits.entries ≤ maxDocumentCatalogEntries ∧ walker.limits.depth ≤ maxDocumentCatalogDepth ∧
    walker.limits.bytes ≤ maxDocumentCatalogBytes) .resourceLimitExceeded
  match root with
  | .unreadable _ => .error .input
  | .directory _ entries => do
      let (documents, skipped) ← walker.walkCancellable ⟨[⟨entries, [], 0⟩], [], [], 0, 0⟩
      .ok ⟨sortBy compareDocuments documents, sortBy compareSkipped skipped⟩
  | _ => .error .invalidPath

end Retonr.Catalog
