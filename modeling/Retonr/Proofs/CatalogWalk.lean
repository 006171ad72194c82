import Retonr.App.DocumentCatalog

/-! The walk of a catalog. Its stack and its two budgets are accounted for by the directories that are
still to be walked. -/

namespace Retonr.Catalog
open Text List Retonr.Except

variable {Observation : Type}

/-! ### What one directory contributes -/

def documentOf (frame : Frame) (entry : Entry) : Option (Text × Bytes) :=
  match classifyEntry entry frame.relative with
  | .document relativePath bytes => some (relativePath, bytes)
  | _ => none

def documents (frames : List Frame) : List (Text × Bytes) := frames.flatMap fun frame => frame.entries.filterMap (documentOf frame)

def sizeOf (documents : List (Text × Bytes)) : Nat := (documents.map fun document => document.2.length).sum

def entryCount (frames : List Frame) : Nat := (frames.map fun frame => frame.entries.length).sum

namespace Scope

variable (scope : Scope)

def childOf (frame : Frame) (entry : Entry) : Option Frame :=
  match classifyEntry entry frame.relative with
  | .descend relativePath entries =>
      if scope.recursive = true ∧ frame.depth + 1 ≤ scope.limits.depth then some ⟨entries, relativePath, frame.depth + 1⟩ else none
  | _ => none

def skippedOf (frame : Frame) (entry : Entry) : Option CatalogSkippedEntry :=
  match classifyEntry entry frame.relative with
  | .document _ _ => none
  | .descend relativePath _ =>
      if scope.recursive = false then some ⟨some relativePath, .directory⟩
      else if scope.limits.depth < frame.depth + 1 then some ⟨some relativePath, .depthLimit⟩
      else none
  | .skipped entry => some entry

/-- A frame with every frame that will be pushed on its account. -/
def subframes : Nat → Frame → List Frame
  | 0, frame => [frame]
  | depth + 1, frame => frame :: (frame.entries.filterMap (scope.childOf frame)).flatMap (subframes depth)

def reach (frame : Frame) : List Frame := scope.subframes (scope.limits.depth - frame.depth) frame

/-- All directories that are walked on account of the pending ones. -/
def work (pending : List Frame) : List Frame := pending.flatMap scope.reach

def skippedEntries (frames : List Frame) : List CatalogSkippedEntry := frames.flatMap fun frame => frame.entries.filterMap (scope.skippedOf frame)

variable {scope} {frame : Frame}

theorem depth_of_childOf {entry : Entry} {child : Frame} (found : scope.childOf frame entry = some child) :
    child.depth = frame.depth + 1 ∧ child.depth ≤ scope.limits.depth := by
  unfold childOf at found
  split at found
  · split at found
    next allowed =>
      cases found
      exact ⟨rfl, allowed.2⟩
    next => cases found
  · cases found

theorem depth_of_mem_children {entries : List Entry} {child : Frame} (member : child ∈ entries.filterMap (scope.childOf frame)) :
    child.depth = frame.depth + 1 ∧ child.depth ≤ scope.limits.depth := by
  obtain ⟨entry, -, found⟩ := mem_filterMap.mp member
  exact depth_of_childOf found

theorem reach_eq (frame : Frame) : scope.reach frame = frame :: (frame.entries.filterMap (scope.childOf frame)).flatMap scope.reach := by
  unfold reach
  cases depth : scope.limits.depth - frame.depth with
  | zero =>
    have none : frame.entries.filterMap (scope.childOf frame) = [] := by
      refine eq_nil_iff_forall_not_mem.mpr fun child member => ?_
      have bound := depth_of_mem_children member
      omega
    rw [none]
    rfl
  | succ remaining =>
    rw [subframes]
    congr 1
    apply flatMap_congr
    intro child member
    have bound := (depth_of_mem_children member).1
    have same : scope.limits.depth - child.depth = remaining := by omega
    rw [same]

theorem work_cons (frame : Frame) (rest : List Frame) : scope.work (frame :: rest) =
    frame :: ((frame.entries.filterMap (scope.childOf frame)).flatMap scope.reach ++ scope.work rest) := by
  rw [work, flatMap_cons, reach_eq, cons_append]
  rfl

theorem work_pushed {entries : List Entry} (same : entries.Perm frame.entries) (rest : List Frame) :
    (scope.work ((entries.filterMap (scope.childOf frame)).reverse ++ rest)).Perm
      ((frame.entries.filterMap (scope.childOf frame)).flatMap scope.reach ++ scope.work rest) := by
  rw [work, flatMap_append]
  exact ((reverse_perm _).trans (same.filterMap _)).flatMap (fun _ _ => .refl _) |>.append_right _

theorem skippedEntries_perm {frames others : List Frame} (same : frames.Perm others) :
    (scope.skippedEntries frames).Perm (scope.skippedEntries others) :=
  same.flatMap fun _ _ => .refl _

end Scope

theorem entryCount_perm {frames others : List Frame} (same : frames.Perm others) : entryCount frames = entryCount others := (same.map _).sum_nat

theorem documents_perm {frames others : List Frame} (same : frames.Perm others) : (documents frames).Perm (documents others) :=
  same.flatMap fun _ _ => .refl _

theorem sizeOf_perm {first second : List (Text × Bytes)} (same : first.Perm second) : sizeOf first = sizeOf second := (same.map _).sum_nat

theorem filterMap_cons_toList {α β : Type} (function : α → Option β) (item : α) (items : List α) :
    (item :: items).filterMap function = (function item).toList ++ items.filterMap function := by
  simp only [filterMap_eq_flatMap_toList, flatMap_cons]

theorem sizeOf_append (first second : List (Text × Bytes)) : sizeOf (first ++ second) = sizeOf first + sizeOf second := by simp [sizeOf]

namespace Walker
open Scope

variable (walker : Walker Observation)

def cataloguedAs (document : Text × Bytes) : Option (CatalogEntry Observation) :=
  match RelativeDocumentPath.new document.1, walker.inspectBytes document.1 document.2 with
  | some relativePath, .ok observation => some ⟨relativePath, observation⟩
  | _, _ => none

/-- A document that can be read, and is taken in. -/
def Readable (document : Text × Bytes) : Prop :=
  document.2.length ≤ maxCandidateCheckBytes ∧ ∃ entry, walker.cataloguedAs document = some entry

/-- The state once these entries of a directory have been visited. -/
def visited (frame : Frame) (entries : List Entry) (state : WalkState Observation) : WalkState Observation :=
  { state with
    pending := (entries.filterMap (walker.childOf frame)).reverse ++ state.pending
    documents := state.documents ++ (entries.filterMap (documentOf frame)).filterMap walker.cataloguedAs
    skipped := state.skipped ++ entries.filterMap (walker.skippedOf frame)
    inspectedBytes := state.inspectedBytes + sizeOf (entries.filterMap (documentOf frame)) }

/-- A state within the byte budget, or the lack of resources that another one stands for. -/
def afford (state : WalkState Observation) : Except DocumentCatalogError (WalkState Observation) :=
  if state.inspectedBytes ≤ walker.limits.bytes then .ok state else .error .resourceLimitExceeded

variable {walker} {frame : Frame} {state : WalkState Observation} {entry : Entry} {entries : List Entry}

theorem visited_cons : walker.visited frame (entry :: entries) state = walker.visited frame entries (walker.visited frame [entry] state) := by
  simp [visited, filterMap_cons_toList, sizeOf_append, Nat.add_assoc]

/-! ### One entry, one directory -/

variable (small : walker.limits.bytes < usizeLimit)

include small

theorem inspectDocument_eq {document : Text × Bytes} (readable : walker.Readable document) (within : state.inspectedBytes ≤ walker.limits.bytes) :
    walker.inspectDocument state document.1 document.2 = walker.afford { state with
      inspectedBytes := state.inspectedBytes + document.2.length
      documents := state.documents ++ (walker.cataloguedAs document).toList } := by
  obtain ⟨bounded, entry, found⟩ := readable
  have catalogued := found
  unfold cataloguedAs at found
  dsimp only [afford]
  split at found
  next relativePath observation path taken =>
    cases found
    split
    next fits =>
      simp only [inspectDocument, bind_eq_ok, require_eq_ok, exists_unit, Except.ok.injEq, mapError_eq_ok]
      refine ⟨by omega, document.2, ?_, observation, taken, ⟨by omega, fits⟩, relativePath, ?_, ?_⟩
      · rw [readDirectoryBounded, if_pos (Nat.le_min.mpr ⟨by omega, bounded⟩)]
      · rw [relativeDocumentPath, path]
      · rw [catalogued]
        rfl
    next full =>
      have beyond : ¬document.2.length ≤ walker.limits.bytes - state.inspectedBytes := by omega
      simp only [inspectDocument, require, if_neg beyond]
      rfl
  next => cases found

variable (shallow : frame.depth < usizeLimit - 1)

include shallow

theorem visitEntry_eq (readable : ∀ document ∈ documentOf frame entry, walker.Readable document)
    (within : state.inspectedBytes ≤ walker.limits.bytes) : walker.visitEntry frame state entry = walker.afford (walker.visited frame [entry] state) := by
  unfold visitEntry
  simp only [visited, filterMap_cons_toList, filterMap_nil, append_nil]
  unfold documentOf at readable ⊢
  unfold Scope.childOf Scope.skippedOf
  cases found : classifyEntry entry frame.relative with
  | document relativePath bytes =>
    simp only [found, Option.mem_some_iff, forall_eq'] at readable
    have visited := inspectDocument_eq small readable within
    obtain ⟨-, catalogued, known⟩ := readable
    simp only at visited ⊢
    rw [visited]
    simp [sizeOf, known]
  | descend relativePath entries =>
    have depth : min (frame.depth + 1) (usizeLimit - 1) = frame.depth + 1 := by omega
    simp only [descend, depth, skip, sizeOf, afford, Option.toList_none, map_nil, sum_nil, Nat.add_zero, within, if_true,
      filterMap_nil, append_nil]
    cases walker.recursive with
    | false => simp
    | true =>
      by_cases deep : frame.depth < walker.limits.depth <;> simp [← Nat.not_lt, deep]
  | skipped entry => simp [sizeOf, within, skip, afford]

theorem foldlM_visitEntry (readable : ∀ document ∈ entries.filterMap (documentOf frame), walker.Readable document)
    (within : state.inspectedBytes ≤ walker.limits.bytes) :
    entries.foldlM (walker.visitEntry frame) state = walker.afford (walker.visited frame entries state) := by
  induction entries generalizing state with
  | nil => simp [afford, visited, sizeOf, within, pure, Except.pure]
  | cons entry entries ih =>
    rw [filterMap_cons_toList] at readable
    have here := visitEntry_eq small shallow (fun document found => readable document (mem_append_left _ (Option.mem_toList.mpr found))) within
    have whole : walker.visited frame (entry :: entries) state = _ := visited_cons
    rw [foldlM_cons, here, whole]
    by_cases fits : (walker.visited frame [entry] state).inspectedBytes ≤ walker.limits.bytes
    · rw [afford, if_pos fits, ok_bind, ih (fun document member => readable document (mem_append_right _ member)) fits]
    · have grows : (walker.visited frame [entry] state).inspectedBytes ≤
          (walker.visited frame entries (walker.visited frame [entry] state)).inspectedBytes := Nat.le_add_right _ _
      rw [afford, afford, if_neg fits, if_neg (by omega)]
      rfl

omit small shallow

theorem takeEntries_eq {maximumEntries : Nat} {taken listed : List Entry} (room : taken.length ≤ maximumEntries) :
    takeEntries maximumEntries taken listed =
      if taken.length + listed.length ≤ maximumEntries then .ok (taken ++ listed) else .error .resourceLimitExceeded := by
  induction listed generalizing taken with
  | nil => simp [takeEntries, room]
  | cons entry listed ih =>
    rw [takeEntries, length_cons]
    split
    next full => rw [if_neg (by omega)]
    next space =>
      rw [ih (by rw [length_append, length_singleton]; omega)]
      simp only [length_append, length_singleton, append_assoc, singleton_append]
      congr 1
      rw [eq_iff_iff]
      omega

/-- A visited directory is read whole, in some order, or there was no room for it. -/
theorem visitFrame_eq (readable : ∀ document ∈ frame.entries.filterMap (documentOf frame), walker.Readable document)
    (seen : state.seen ≤ walker.limits.entries) (within : state.inspectedBytes ≤ walker.limits.bytes)
    (few : walker.limits.entries < usizeLimit) (small : walker.limits.bytes < usizeLimit) (shallow : frame.depth < usizeLimit - 1) :
    ∃ entries : List Entry, entries.Perm frame.entries ∧ walker.visitFrame state frame =
      if state.seen + frame.entries.length ≤ walker.limits.entries ∧
          state.inspectedBytes + sizeOf (frame.entries.filterMap (documentOf frame)) ≤ walker.limits.bytes then
        .ok (walker.visited frame entries { state with seen := state.seen + frame.entries.length })
      else .error .resourceLimitExceeded := by
  have listed := walker.listed frame.relative frame.entries
  refine ⟨sortBy (compareOn Entry.name) (walker.listing frame.relative frame.entries), sortBy_perm.trans listed, ?_⟩
  set entries := sortBy (compareOn Entry.name) (walker.listing frame.relative frame.entries) with entries_eq
  have same : entries.Perm frame.entries := sortBy_perm.trans listed
  rw [visitFrame, readSortedEntries, takeEntries_eq (Nat.zero_le _), length_nil, Nat.zero_add, listed.length_eq]
  by_cases room : state.seen + frame.entries.length ≤ walker.limits.entries
  · rw [if_pos (by omega), nil_append]
    simp only [ok_bind, ← entries_eq, same.length_eq]
    have seenNow : min (state.seen + frame.entries.length) (usizeLimit - 1) = state.seen + frame.entries.length := by omega
    rw [seenNow, require, if_pos room, ok_bind]
    refine (@foldlM_visitEntry _ walker frame { state with seen := state.seen + frame.entries.length } entries small shallow
      (fun document member => readable document ((same.filterMap _).mem_iff.mp member)) within).trans ?_
    simp only [afford, visited, sizeOf_perm (same.filterMap _), room, true_and]
  · rw [if_neg (by omega), if_neg (fun both => room both.1)]
    rfl

/-! ### The walk -/

theorem walkCancellable_nil (empty : state.pending = []) : walker.walkCancellable state = .ok (state.documents, state.skipped) := by
  rw [walkCancellable]
  split
  next => rfl
  next found => simp [empty] at found

theorem walkCancellable_cons {rest : List Frame} (found : state.pending = frame :: rest) : walker.walkCancellable state =
    (walker.visitFrame { state with pending := rest } frame).bind walker.walkCancellable := by
  rw [walkCancellable]
  split
  next empty => simp [found] at empty
  next top below same =>
    rw [found] at same
    cases same
    split
    next visited =>
      rw [visited]
      rfl
    next next visited =>
      change walker.walkCancellable next = _
      rw [visited]
      rfl

/-- The walk reports all that is walked on account of the pending directories, if both budgets hold
out, and fails for want of resources if one does not. -/
theorem walkCancellable_spec (few : walker.limits.entries < usizeLimit) (small : walker.limits.bytes < usizeLimit)
    (bounded : walker.limits.depth < usizeLimit - 1) (state : WalkState Observation) (shallow : ∀ frame ∈ state.pending, frame.depth ≤ walker.limits.depth)
    (readable : ∀ document ∈ documents (walker.work state.pending), walker.Readable document) (seen : state.seen ≤ walker.limits.entries)
    (within : state.inspectedBytes ≤ walker.limits.bytes) : if state.seen + entryCount (walker.work state.pending) ≤ walker.limits.entries ∧
        state.inspectedBytes + sizeOf (documents (walker.work state.pending)) ≤ walker.limits.bytes then
      ∃ found skipped, walker.walkCancellable state = .ok (found, skipped) ∧
        found.Perm (state.documents ++ (documents (walker.work state.pending)).filterMap walker.cataloguedAs) ∧
        skipped.Perm (state.skipped ++ walker.skippedEntries (walker.work state.pending))
    else walker.walkCancellable state = .error .resourceLimitExceeded := by
  induction weight : pendingWeight state.pending using Nat.strongRecOn generalizing state with
  | ind weight ih =>
  cases pending : state.pending with
  | nil =>
    rw [walkCancellable_nil pending, if_pos]
    · exact ⟨_, _, rfl, by simp [work, documents], by simp [work, skippedEntries]⟩
    · simp [work, entryCount, documents, sizeOf, seen, within]
  | cons frame rest =>
    rw [pending] at shallow readable weight
    rw [work_cons] at readable ⊢
    set others := (frame.entries.filterMap (walker.childOf frame)).flatMap walker.reach ++ walker.work rest with others_eq
    have counts : entryCount (frame :: others) = frame.entries.length + entryCount others := by
      simp [entryCount]
    have parts : documents (frame :: others) = frame.entries.filterMap (documentOf frame) ++ documents others := by
      simp [documents]
    rw [parts] at readable
    have top := shallow frame mem_cons_self
    obtain ⟨entries, same, visited⟩ := @visitFrame_eq _ walker frame { state with pending := rest }
      (fun document member => readable document (mem_append_left _ member)) seen within few small (by omega)
    rw [walkCancellable_cons pending, counts, parts, sizeOf_append]
    by_cases room : state.seen + frame.entries.length ≤ walker.limits.entries ∧
        state.inspectedBytes + sizeOf (frame.entries.filterMap (documentOf frame)) ≤ walker.limits.bytes
    · rw [if_pos room] at visited
      have lighter := pendingWeight_visitFrame visited
      have pushed : (walker.work ((entries.filterMap (walker.childOf frame)).reverse ++ rest)).Perm others := work_pushed same rest
      have later := ih _ (weight ▸ lighter) _ (by
          intro child member
          rcases mem_append.mp member with new | old
          · exact (depth_of_mem_children (mem_reverse.mp new)).2
          · exact shallow child (mem_cons_of_mem _ old))
        (fun document member => readable document (mem_append_right _ ((documents_perm pushed).mem_iff.mp member))) room.1
        (by simpa only [Walker.visited, sizeOf_perm (same.filterMap _)] using room.2) rfl
      rw [visited]
      simp only [Walker.visited, entryCount_perm pushed, sizeOf_perm (documents_perm pushed), sizeOf_perm (same.filterMap _), Nat.add_assoc] at later ⊢
      split
      next fits =>
        rw [if_pos fits] at later
        obtain ⟨found, skipped, walked, foundAll, skippedAll⟩ := later
        refine ⟨found, skipped, walked, foundAll.trans ?_, skippedAll.trans ?_⟩
        · rw [filterMap_append, append_assoc]
          exact (((same.filterMap _).filterMap _).append ((documents_perm pushed).filterMap _)).append_left _
        · rw [append_assoc]
          have here : walker.skippedEntries (frame :: others) = frame.entries.filterMap (walker.skippedOf frame) ++ walker.skippedEntries others := by
            simp [skippedEntries]
          rw [here]
          exact ((same.filterMap _).append (skippedEntries_perm pushed)).append_left _
      next full =>
        rw [if_neg full] at later
        exact later
    · rw [if_neg room] at visited
      rw [visited, if_neg (by omega)]
      rfl

end Walker

end Retonr.Catalog
