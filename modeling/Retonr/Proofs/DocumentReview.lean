import Retonr.App.DocumentReview

/-! Background review shows only the result of the latest accepted request and loses none. One
invariant ties the three records of the latest operation (the calling thread's, the handle's and
the mailbox's) to each other and to the history; every step of every thread preserves it. -/

namespace Retonr.DocumentReview
open List

variable {α ε : Type}

def Event.isAccepted : Event α ε → Bool
  | .accepted _ _ => true
  | _ => false

def Event.acceptedId : Event α ε → Option DocumentReviewOperationId
  | .accepted id _ => some id
  | _ => none

def Event.settledId : Event α ε → Option DocumentReviewOperationId
  | .settled id => id
  | _ => none

/-- A history with so many accepted operations, numbered in their order; a review returns only for
an accepted request, and only the latest operation settles, once. -/
inductive Ordered : Nat → List (Event α ε) → Prop
  | nil : Ordered 0 []
  | accepted {count log} (request) (ordered : Ordered count log) : Ordered (count + 1) (.accepted (count + 1) request :: log)
  | cancelCalled {count log} (ordered : Ordered count log) : Ordered count (.cancelCalled :: log)
  | returned {count log id request} (result) (ordered : Ordered count log) (known : Event.accepted id request ∈ log) :
      Ordered count (.returned id request result :: log)
  | settled {count log} (ordered : Ordered count log) (first : Event.settled (some count) ∉ log) :
      Ordered count (.settled (some count) :: log)

namespace Ordered

variable {count : Nat} {log : List (Event α ε)}

section
variable (ordered : Ordered count log)
include ordered

theorem accepted_le {id : Nat} {request : DocumentReviewOperationRequest} (known : Event.accepted id request ∈ log) : id ≤ count := by
  induction ordered with
  | nil => cases known
  | accepted _ _ ih =>
    rcases mem_cons.mp known with same | earlier
    · cases same
      exact Nat.le_refl _
    · exact Nat.le_succ_of_le (ih earlier)
  | cancelCalled _ ih => exact ih ((mem_cons.mp known).resolve_left nofun)
  | returned _ _ _ ih => exact ih ((mem_cons.mp known).resolve_left nofun)
  | settled _ _ ih => exact ih ((mem_cons.mp known).resolve_left nofun)

theorem settled_le {id : Option Nat} (known : Event.settled id ∈ log) : ∃ number ≤ count, id = some number := by
  induction ordered with
  | nil => cases known
  | accepted _ _ ih =>
    obtain ⟨number, bounded, same⟩ := ih ((mem_cons.mp known).resolve_left nofun)
    exact ⟨number, Nat.le_succ_of_le bounded, same⟩
  | cancelCalled _ ih => exact ih ((mem_cons.mp known).resolve_left nofun)
  | returned _ _ _ ih => exact ih ((mem_cons.mp known).resolve_left nofun)
  | settled _ _ ih =>
    rcases mem_cons.mp known with same | earlier
    · cases same
      exact ⟨_, Nat.le_refl _, rfl⟩
    · exact ih earlier

theorem accepted_ids : log.reverse.filterMap Event.acceptedId = List.range' 1 count := by
  induction ordered with
  | nil => rfl
  | @accepted count _ _ _ ih => simp [Event.acceptedId, ih, List.range'_concat, Nat.add_comm]
  | cancelCalled _ ih => simp [Event.acceptedId, ih]
  | returned _ _ _ ih => simp [Event.acceptedId, ih]
  | settled _ _ ih => simp [Event.acceptedId, ih]

theorem settled_nodup : (log.filterMap Event.settledId).Nodup := by
  induction ordered with
  | nil => simp
  | accepted _ _ ih => rwa [filterMap_cons_none rfl]
  | cancelCalled _ ih => rwa [filterMap_cons_none rfl]
  | returned _ _ _ ih => rwa [filterMap_cons_none rfl]
  | @settled count log _ first ih =>
    have settles : (Event.settled (some count) : Event α ε).settledId = some count := rfl
    rw [filterMap_cons_some settles, nodup_cons]
    refine ⟨fun member => ?_, ih⟩
    obtain ⟨event, known, same⟩ := mem_filterMap.mp member
    cases event with
    | settled id =>
      cases same
      exact first known
    | _ => cases same

theorem split_latest (positive : 0 < count) :
    ∃ recent request before, log = recent ++ .accepted count request :: before ∧ (∀ event ∈ recent, event.isAccepted = false) ∧
      Ordered (count - 1) before := by
  induction ordered with
  | nil => cases positive
  | accepted request ordered _ => exact ⟨[], request, _, rfl, by simp, ordered⟩
  | cancelCalled _ ih =>
    obtain ⟨recent, request, before, rfl, quiet, earlier⟩ := ih positive
    exact ⟨.cancelCalled :: recent, request, before, rfl, by simpa [Event.isAccepted] using quiet, earlier⟩
  | @returned _ _ id other result _ _ ih =>
    obtain ⟨recent, request, before, rfl, quiet, earlier⟩ := ih positive
    exact ⟨.returned id other result :: recent, request, before, rfl, by simpa [Event.isAccepted] using quiet, earlier⟩
  | @settled count _ _ _ ih =>
    obtain ⟨recent, request, before, rfl, quiet, earlier⟩ := ih positive
    exact ⟨.settled (some count) :: recent, request, before, rfl, by simpa [Event.isAccepted] using quiet, earlier⟩

theorem returned_known {id : Nat} {request : DocumentReviewOperationRequest}
    {result : Except (DocumentReviewError ε) α} (returned : Event.returned id request result ∈ log) : Event.accepted id request ∈ log := by
  induction ordered with
  | nil => cases returned
  | accepted _ _ ih => exact mem_cons_of_mem _ (ih ((mem_cons.mp returned).resolve_left nofun))
  | cancelCalled _ ih => exact mem_cons_of_mem _ (ih ((mem_cons.mp returned).resolve_left nofun))
  | returned _ _ known ih =>
    rcases mem_cons.mp returned with same | earlier
    · cases same
      exact mem_cons_of_mem _ known
    · exact mem_cons_of_mem _ (ih earlier)
  | settled _ _ ih => exact mem_cons_of_mem _ (ih ((mem_cons.mp returned).resolve_left nofun))

end

end Ordered

/-- The job the worker has in hand. -/
def Worker.job : Worker α ε → Option Job
  | .taken job | .reviewing job | .returned job _ => some job
  | _ => none

/-- The ready result was returned for the latest accepted request, and no cancel was called between
its acceptance and the poll that accepted it. -/
def Shown (count : Nat) (log : List (Event α ε)) (result : α) : Prop :=
  ∃ after middle request before, log = after ++ .settled (some count) :: (middle ++ .accepted count request :: before) ∧
    (∀ event ∈ after ++ middle, event.isAccepted = false) ∧ Event.cancelCalled ∉ middle ∧ Event.returned count request (.ok result) ∈ middle

variable {log : List (Event α ε)}

theorem Shown.cons {count : Nat} {result : α} (shown : Shown count log result) {event : Event α ε}
    (quiet : event.isAccepted = false) : Shown count (event :: log) result := by
  obtain ⟨after, middle, request, before, rfl, others, uncancelled, returned⟩ := shown
  exact ⟨event :: after, middle, request, before, rfl, by simpa [quiet] using others, uncancelled, returned⟩

/-- No cancel has been called since the latest acceptance. -/
def Uncancelled (log : List (Event α ε)) : Prop := Event.cancelCalled ∉ log.takeWhile fun event => !event.isAccepted

theorem Uncancelled.cons_iff {event : Event α ε} (quiet : event.isAccepted = false)
    (other : event ≠ .cancelCalled) : Uncancelled (event :: log) ↔ Uncancelled log := by
  simp [Uncancelled, quiet, other.symm]

/-- Where the latest operation can be. -/
inductive Located (world : World α ε) (id : DocumentReviewOperationId) : Prop
  | pending {job : Job} (waits : world.shared.mailbox.pending = some job) (same : job.id = id)
  | held {job : Job} (holds : world.worker.job = some job) (same : job.id = id)
  | completed {completion : DocumentReviewOperationCompletion α ε} (done : world.shared.mailbox.completed = some completion)
      (same : completion.operationId = id)

variable {world next : World α ε} {id : DocumentReviewOperationId}

theorem Located.transfer (located : Located world id)
    (mailbox : next.shared.mailbox = world.shared.mailbox) (worker : next.worker = world.worker) : Located next id := by
  cases located with
  | pending waits same => exact .pending (mailbox ▸ waits) same
  | held holds same => exact .held (worker ▸ holds) same
  | completed done same => exact .completed (mailbox ▸ done) same

/-- The history and the latest operation as the calling thread, the handle and the mailbox know it. -/
structure Handles (world : World α ε) : Prop where
  ordered : Ordered world.review.operation.sequence world.log
  mailbox : world.shared.mailbox.latest = world.review.operation.latest.map Prod.fst
  latest : ∀ id token, world.review.operation.latest = some (id, token) →
    id = world.review.operation.sequence ∧ token = world.review.operation.sequence ∧ world.review.current = some world.review.operation.sequence
  loading : world.review.outcome = .loading → world.review.operation.latest ≠ none ∧ 0 < world.review.operation.sequence ∧
    Event.settled (some world.review.operation.sequence) ∉ world.log
  shown : ∀ result, world.review.outcome = .ready result → Shown world.review.operation.sequence world.log result
  seen : world.review.outcome = .loading → Uncancelled world.log ∨ world.shared.tokens world.review.operation.sequence = true
  polling : world.call = .polling false → world.review.outcome = .loading → Uncancelled world.log

/-- The jobs and the completion in flight. -/
structure Flight (world : World α ε) : Prop where
  pending : ∀ job, world.shared.mailbox.pending = some job →
    job.cancellation = job.id ∧ Event.accepted job.id job.request ∈ world.log ∧ ∀ other, world.worker.job = some other → other.id ≠ job.id
  held : ∀ job, world.worker.job = some job → job.cancellation = job.id ∧ Event.accepted job.id job.request ∈ world.log
  returned : ∀ job result, world.worker = .returned job result → Event.returned job.id job.request result ∈ world.log
  completed : ∀ completion, world.shared.mailbox.completed = some completion →
    world.shared.mailbox.latest = some completion.operationId ∧
      (∀ job, world.shared.mailbox.pending = some job ∨ world.worker.job = some job → job.id ≠ completion.operationId) ∧
        ∃ request result, Event.returned completion.operationId request result ∈ world.log ∧ completion.result = result.mapError .review

/-- The threads' own order, and that an uncancelled operation is somewhere. -/
structure Threads (world : World α ε) : Prop where
  starting : world.supervisor = .starting → world.worker = .unstarted
  finished : world.supervisor ≠ .starting → world.supervisor ≠ .joining → world.worker = .ended
  dropping : world.call = .dropping ∨ world.shared.shutdown = true → world.review.outcome = .loading →
    world.shared.tokens world.review.operation.sequence = true
  dropped : world.shared.shutdown = true ↔ world.call = .dropped
  located : world.review.outcome = .loading → world.shared.tokens world.review.operation.sequence = false → world.worker ≠ .ended →
    Located world world.review.operation.sequence

structure Inv (world : World α ε) : Prop where
  handles : Handles world
  flight : Flight world
  threads : Threads world

theorem inv_new : Inv (World.new : World α ε) where
  handles := by constructor <;> simp [World.new, Shared.new, DocumentReviewState.new]; exact .nil
  flight := by constructor <;> simp [World.new, Shared.new, Worker.job]
  threads := by constructor <;> simp [World.new, Shared.new, DocumentReviewState.new]

@[simp] theorem tokens_setToken (shared : Shared α ε) (token other : CancellationToken) (cancelled : Bool) :
    (shared.setToken token cancelled).tokens other = if other = token then cancelled else shared.tokens other := rfl

@[simp] theorem mailbox_cancelLatest (operation : DocumentReviewOperation) (shared : Shared α ε) :
    (operation.cancelLatest shared).mailbox = shared.mailbox := by
  cases latest : operation.latest <;> simp [DocumentReviewOperation.cancelLatest, latest, Shared.cancel, Shared.setToken]

@[simp] theorem shutdown_cancelLatest (operation : DocumentReviewOperation) (shared : Shared α ε) :
    (operation.cancelLatest shared).shutdown = shared.shutdown := by
  cases latest : operation.latest <;> simp [DocumentReviewOperation.cancelLatest, latest, Shared.cancel, Shared.setToken]

variable {shared : Shared α ε}

theorem tokens_cancelLatest {operation : DocumentReviewOperation}
    {token : CancellationToken} (latest : operation.latest = some (id, token)) (other : CancellationToken) :
    (operation.cancelLatest shared).tokens other = (other = token || shared.tokens other) := by
  by_cases same : other = token <;> simp [DocumentReviewOperation.cancelLatest, latest, Shared.cancel, same]

/-- A submit either gives the request back and changes nothing, or makes it the latest operation. -/
theorem submit_cases (lock : TryLock) (review : DocumentReviewState α ε) (shared : Shared α ε) (request : DocumentReviewOperationRequest) :
    (∃ error, review.submit lock shared request = (.error ⟨request, error⟩, review, shared)) ∨
      review.submit lock shared request = (.ok (review.operation.sequence + 1),
        ⟨⟨review.operation.sequence + 1, some (review.operation.sequence + 1, review.operation.sequence + 1)⟩,
          some (review.operation.sequence + 1), some ⟨request.sourceBytes, request.candidateBytes⟩, false, .loading⟩,
        { (review.operation.cancelLatest shared).setToken (review.operation.sequence + 1) false with
          mailbox := ⟨some (review.operation.sequence + 1),
            some ⟨review.operation.sequence + 1, request, review.operation.sequence + 1⟩, none⟩ }) := by
  by_cases exhausted : 2 ^ 64 ≤ review.operation.sequence + 1
  · refine .inl ⟨.identifierExhausted, ?_⟩
    simp only [DocumentReviewState.submit, DocumentReviewOperation.submit, if_pos exhausted]
  cases lock with
  | wouldBlock =>
    refine .inl ⟨.busy, ?_⟩
    simp only [DocumentReviewState.submit, DocumentReviewOperation.submit, if_neg exhausted, DocumentReviewOperation.mailbox]
  | poisoned =>
    refine .inl ⟨.stopped, ?_⟩
    simp only [DocumentReviewState.submit, DocumentReviewOperation.submit, if_neg exhausted, DocumentReviewOperation.mailbox]
  | acquired =>
    by_cases closed : (shared.shutdown || shared.stopped) = true
    · refine .inl ⟨.stopped, ?_⟩
      simp only [DocumentReviewState.submit, DocumentReviewOperation.submit, if_neg exhausted, DocumentReviewOperation.mailbox,
        if_pos closed]
    · refine .inr ?_
      simp only [DocumentReviewState.submit, DocumentReviewOperation.submit, if_neg exhausted, DocumentReviewOperation.mailbox,
        if_neg closed]

/-- The outcome a completion leads to. -/
def outcomeOf (result : Except (DocumentReviewOperationError ε) α) : Outcome α ε :=
  match result with
  | .ok result => .ready result
  | .error .cancelled => .cancelled
  | .error (.review .cancelled) => .cancelled
  | .error error => .failed error

theorem outcomeOf_ne_loading (result : Except (DocumentReviewOperationError ε) α) : outcomeOf result ≠ .loading := by
  unfold outcomeOf
  split <;> simp

theorem outcomeOf_eq_ready {result : Except (DocumentReviewOperationError ε) α} {value : α} (ready : outcomeOf result = .ready value) :
    result = .ok value := by
  unfold outcomeOf at ready
  split at ready <;> simp_all

/-- What a poll of a latest operation can do. -/
inductive Polled (review : DocumentReviewState α ε) (shared : Shared α ε) (id : DocumentReviewOperationId) (cancelled : Bool) :
    Except (DocumentReviewOperationError ε) Bool → DocumentReviewState α ε → Shared α ε → Prop
  | refused {error : DocumentReviewOperationError ε} : Polled review shared id cancelled (.error error) review shared
  | poisoned (loading : review.outcome = .loading) :
      Polled review shared id cancelled (.ok true) { review with outcome := .failed .stopped } (review.operation.cancelLatest shared)
  | nothing (uncancelled : cancelled = false) (absent : ∀ completion, shared.mailbox.completed = some completion → completion.operationId ≠ id) :
      Polled review shared id cancelled (.ok false) review { shared with mailbox := { shared.mailbox with completed := none } }
  | settled {completion : DocumentReviewOperationCompletion α ε} {pending : Option Job} (same : completion.operationId = id)
      (source : cancelled = true ∧ completion.result = .error .cancelled ∨
        cancelled = false ∧ (shared.mailbox.completed = some completion ∨ completion.result = .error .stopped))
      (kept : pending = none ∨ pending = shared.mailbox.pending) (loading : review.outcome = .loading) :
      Polled review shared id cancelled (.ok true)
        { review with operation := { review.operation with latest := none }, outcome := outcomeOf completion.result }
        { shared with mailbox := ⟨none, pending, none⟩ }
  | stale {pending : Option Job} (kept : pending = none ∨ pending = shared.mailbox.pending) (settled : review.outcome ≠ .loading) :
      Polled review shared id cancelled (.ok false) { review with operation := { review.operation with latest := none } }
        { shared with mailbox := ⟨none, pending, none⟩ }

/-- What an uncancelled latest operation returned is what settling it shows. -/
theorem shown_of_returned {count : Nat} (ordered : Ordered count log) (positive : 0 < count)
    (uncancelled : Uncancelled log) {request : DocumentReviewOperationRequest} {value : α}
    (returned : Event.returned count request (.ok value) ∈ log) : Shown count (.settled (some count) :: log) value := by
  have known := ordered.returned_known returned
  obtain ⟨recent, latest, before, rfl, quiet, earlier⟩ := ordered.split_latest positive
  have fresh : ∀ request, Event.accepted count request ∉ before := fun request member => by
    have bounded := earlier.accepted_le member
    omega
  have same : request = latest := by
    rcases mem_append.mp known with inside | rest
    · exact absurd (quiet _ inside) nofun
    · rcases mem_cons.mp rest with same | inside
      · cases same
        rfl
      · exact absurd inside (fresh request)
  have inside : Event.returned count request (.ok value) ∈ recent := by
    rcases mem_append.mp returned with inside | rest
    · exact inside
    · exact absurd (earlier.returned_known ((mem_cons.mp rest).resolve_left nofun)) (fresh request)
  have recently : (recent ++ .accepted count latest :: before).takeWhile (fun event => !event.isAccepted) = recent := by
    rw [takeWhile_append_of_pos fun event member => by simp [quiet event member]]
    simp [Event.isAccepted]
  rw [Uncancelled, recently] at uncancelled
  exact ⟨[], recent, latest, before, rfl, quiet, uncancelled, same ▸ inside⟩

variable {review : DocumentReviewState α ε}

theorem phase_eq_loading : review.phase = .loading ↔ review.outcome = .loading := by
  cases outcome : review.outcome <;> simp [DocumentReviewState.phase, outcome]

theorem apply_loading {completion : DocumentReviewOperationCompletion α ε}
    (current : review.current = some completion.operationId) (loading : review.outcome = .loading) (operation : DocumentReviewOperation) :
    DocumentReviewState.apply { review with operation } completion =
      (true, { review with operation, outcome := outcomeOf completion.result }) := by
  simp only [DocumentReviewState.apply, DocumentReviewState.phase, loading, current, ne_eq, not_true_eq_false, or_self, if_false]
  rfl

theorem apply_settled (settled : review.outcome ≠ .loading) (operation : DocumentReviewOperation)
    (completion : DocumentReviewOperationCompletion α ε) :
    DocumentReviewState.apply { review with operation } completion = (false, { review with operation }) := by
  have phase : DocumentReviewState.phase { review with operation } ≠ .loading := mt phase_eq_loading.mp settled
  simp only [DocumentReviewState.apply, phase, ne_eq, not_false_eq_true, true_or, if_true]

variable {lock : TryLock} {cancelled : Bool}

theorem polled_of_completion {completion : DocumentReviewOperationCompletion α ε} {pending : Option Job}
    (current : review.current = some id) (same : completion.operationId = id)
    (source : cancelled = true ∧ completion.result = .error .cancelled ∨
      cancelled = false ∧ (shared.mailbox.completed = some completion ∨ completion.result = .error .stopped))
    (kept : pending = none ∨ pending = shared.mailbox.pending) (completes : review.operation.poll lock cancelled shared =
      (.ok (some completion), { review.operation with latest := none }, { shared with mailbox := ⟨none, pending, none⟩ })) :
    Polled review shared id cancelled (review.poll lock cancelled shared).1 (review.poll lock cancelled shared).2.1
      (review.poll lock cancelled shared).2.2 := by
  simp only [DocumentReviewState.poll, completes]
  by_cases loading : review.outcome = .loading
  · rw [apply_loading (by rw [current, same]) loading]
    exact .settled same source kept loading
  · rw [apply_settled loading]
    exact .stale kept loading

theorem polled (lock : TryLock) (cancelled : Bool) (review : DocumentReviewState α ε) (shared : Shared α ε) {id token : Nat}
    (latest : review.operation.latest = some (id, token)) (current : review.current = some id) :
    Polled review shared id cancelled (review.poll lock cancelled shared).1 (review.poll lock cancelled shared).2.1
      (review.poll lock cancelled shared).2.2 := by
  cases lock with
  | wouldBlock =>
    simp only [DocumentReviewState.poll, DocumentReviewOperation.poll, latest, DocumentReviewOperation.mailbox]
    exact .refused
  | poisoned =>
    simp only [DocumentReviewState.poll, DocumentReviewOperation.poll, latest, DocumentReviewOperation.mailbox]
    split
    next loading => exact .poisoned loading
    · exact .refused
  | acquired =>
    cases cancelled with
    | true =>
      have cancels : review.operation.poll .acquired true shared = (.ok (some ⟨id, .error .cancelled⟩),
          { review.operation with latest := none }, { shared with mailbox := ⟨none, none, none⟩ }) := by
        simp [DocumentReviewOperation.poll, latest, DocumentReviewOperation.mailbox]
      exact polled_of_completion current rfl (.inl ⟨rfl, rfl⟩) (.inl rfl) cancels
    | false =>
      cases found : shared.mailbox.completed.filter fun completed => completed.operationId == id with
      | some completion =>
        obtain ⟨present, same⟩ := Option.filter_eq_some_iff.mp found
        refine polled_of_completion current (by simpa using same) (.inr ⟨rfl, .inl present⟩) (.inr rfl) ?_
        simp [DocumentReviewOperation.poll, latest, DocumentReviewOperation.mailbox, found]
      | none =>
        cases stopped : shared.stopped with
        | true =>
          have stops : review.operation.poll .acquired false shared = (.ok (some ⟨id, .error .stopped⟩),
              { review.operation with latest := none }, { shared with mailbox := ⟨none, shared.mailbox.pending, none⟩ }) := by
            simp [DocumentReviewOperation.poll, latest, DocumentReviewOperation.mailbox, found, stopped]
          exact polled_of_completion current rfl (.inr ⟨rfl, .inr rfl⟩) (.inr rfl) stops
        | false =>
          have polls : review.poll .acquired false shared =
              (.ok false, review, { shared with mailbox := { shared.mailbox with completed := none } }) := by
            simp [DocumentReviewState.poll, DocumentReviewOperation.poll, latest, DocumentReviewOperation.mailbox, found, stopped]
          rw [polls]
          refine .nothing rfl fun completion present same => ?_
          simp [present, Option.filter_eq_none_iff, same] at found

/-- The history after a poll with this result. -/
def pollLog (result : Except (DocumentReviewOperationError ε) Bool) (world : World α ε) : List (Event α ε) :=
  match result with
  | .ok true => .settled world.review.current :: world.log
  | _ => world.log

theorem pollMailbox_eq (call : world.call = .polling cancelled) (lock : TryLock) :
    world.step (.pollMailbox lock) = some { world with
      review := (world.review.poll lock cancelled world.shared).2.1
      shared := (world.review.poll lock cancelled world.shared).2.2
      call := .none
      log := pollLog (world.review.poll lock cancelled world.shared).1 world } := by
  simp only [World.step, call]
  obtain ⟨result, review, shared⟩ := world.review.poll lock cancelled world.shared
  cases result with
  | error => rfl
  | ok accepted => cases accepted <;> rfl

namespace Inv

variable {world : World α ε}

theorem latest_of_loading (inv : Inv world) (loading : world.review.outcome = .loading) :
    world.review.operation.latest = some (world.review.operation.sequence, world.review.operation.sequence) := by
  cases latest : world.review.operation.latest with
  | none => exact absurd latest (inv.handles.loading loading).1
  | some pair =>
    obtain ⟨id, token⟩ := pair
    obtain ⟨rfl, rfl, -⟩ := inv.handles.latest id token latest
    rfl

theorem current_of_loading (inv : Inv world) (loading : world.review.outcome = .loading) :
    world.review.current = some world.review.operation.sequence :=
  (inv.handles.latest _ _ (inv.latest_of_loading loading)).2.2

theorem cancelled_of_loading (inv : Inv world) (loading : world.review.outcome = .loading) :
    (world.review.operation.cancelLatest world.shared).tokens world.review.operation.sequence = true := by
  rw [tokens_cancelLatest (inv.latest_of_loading loading)]
  simp

theorem open_of_call (inv : Inv world) (call : world.call ≠ .dropped) : world.shared.shutdown = false := by
  by_contra shutdown
  exact call (inv.threads.dropped.mp (by simpa using shutdown))

theorem submit (inv : Inv world) (call : world.call = .none) (request : DocumentReviewOperationRequest)
    (disclosure : DocumentReviewInputDisclosure) :
    Inv { world with
      review := ⟨⟨world.review.operation.sequence + 1,
        some (world.review.operation.sequence + 1, world.review.operation.sequence + 1)⟩,
        some (world.review.operation.sequence + 1), some disclosure, false, .loading⟩
      shared := { (world.review.operation.cancelLatest world.shared).setToken (world.review.operation.sequence + 1) false with
        mailbox := ⟨some (world.review.operation.sequence + 1),
          some ⟨world.review.operation.sequence + 1, request, world.review.operation.sequence + 1⟩, none⟩ }
      log := .accepted (world.review.operation.sequence + 1) request :: world.log } where
  handles := {
    ordered := .accepted request inv.handles.ordered
    mailbox := rfl
    latest := by rintro id token same; cases same; exact ⟨rfl, rfl, rfl⟩
    loading := by
      refine fun _ => ⟨nofun, Nat.succ_pos _, fun settled => ?_⟩
      obtain ⟨number, bounded, same⟩ := inv.handles.ordered.settled_le ((mem_cons.mp settled).resolve_left nofun)
      cases same
      exact Nat.not_succ_le_self _ bounded
    shown := nofun
    seen := fun _ => .inl (by simp [Uncancelled, Event.isAccepted])
    polling := fun _ _ => by simp [Uncancelled, Event.isAccepted] }
  flight := {
    pending := by
      rintro job same
      cases same
      refine ⟨rfl, mem_cons_self, fun other holds same => ?_⟩
      have bounded := inv.handles.ordered.accepted_le (inv.flight.held other holds).2
      rw [same] at bounded
      exact Nat.not_succ_le_self _ bounded
    held := fun job holds => ⟨(inv.flight.held job holds).1, mem_cons_of_mem _ (inv.flight.held job holds).2⟩
    returned := fun job result holds => mem_cons_of_mem _ (inv.flight.returned job result holds)
    completed := nofun }
  threads := {
    starting := inv.threads.starting
    finished := inv.threads.finished
    dropping := by
      rintro (dropping | shutdown)
      · exact absurd (call.symm.trans dropping) nofun
      · have opened := inv.open_of_call (by simp [call])
        simp [Shared.setToken, opened] at shutdown
    dropped := by simpa [Shared.setToken] using inv.threads.dropped
    located := fun _ _ _ => .pending rfl rfl }

variable {next : World α ε}

/-- What is in flight may leave the mailbox or the worker, and the history may grow. -/
theorem shrink_flight (flight : Flight world)
    (pending : ∀ job, next.shared.mailbox.pending = some job → world.shared.mailbox.pending = some job)
    (completed : ∀ completion, next.shared.mailbox.completed = some completion →
      world.shared.mailbox.completed = some completion ∧ next.shared.mailbox.latest = world.shared.mailbox.latest)
    (held : ∀ job, next.worker.job = some job → world.worker.job = some job)
    (returned : ∀ job result, next.worker = .returned job result → world.worker = .returned job result)
    (log : ∀ event ∈ world.log, event ∈ next.log) : Flight next where
  pending job waits := by
    obtain ⟨token, known, apart⟩ := flight.pending job (pending job waits)
    exact ⟨token, log _ known, fun other holds => apart other (held other holds)⟩
  held job holds := (flight.held job (held job holds)).imp_right (log _)
  returned job result holds := log _ (flight.returned job result (returned job result holds))
  completed completion done := by
    obtain ⟨before, same⟩ := completed completion done
    obtain ⟨latest, apart, request, result, known, mapped⟩ := flight.completed completion before
    exact ⟨same.trans latest, fun job place => apart job (place.imp (pending job) (held job)), request, result, log _ known, mapped⟩

theorem transfer_flight (flight : Flight world) (mailbox : next.shared.mailbox = world.shared.mailbox)
    (worker : next.worker = world.worker) (log : ∀ event ∈ world.log, event ∈ next.log) : Flight next :=
  shrink_flight flight (by simp [mailbox]) (by simp [mailbox]) (by simp [worker]) (by simp [worker]) log

section
variable (inv : Inv world)
include inv

theorem cancel (call : world.call = .none) :
    Inv { world with
      review := (world.review.cancel world.shared).1
      shared := (world.review.cancel world.shared).2
      log := .cancelCalled :: world.log } := by
  have handles := inv.handles
  have threads := inv.threads
  by_cases loading : world.review.outcome = .loading
  · have cancelled := inv.cancelled_of_loading loading
    simp only [DocumentReviewState.cancel, loading]
    exact {
      handles := { handles with
        ordered := .cancelCalled handles.ordered
        mailbox := by simpa using handles.mailbox
        loading := fun _ => by simpa using handles.loading loading
        shown := nofun
        seen := fun _ => .inr cancelled
        polling := fun polling => absurd (call.symm.trans polling) nofun }
      flight := transfer_flight inv.flight (by simp) rfl fun _ => mem_cons_of_mem _
      threads := { threads with
        dropping := fun _ _ => cancelled
        dropped := by simpa using threads.dropped
        located := fun _ active => absurd (cancelled.symm.trans active) nofun } }
  · have unchanged : world.review.cancel world.shared = (world.review, world.shared) := by
      cases outcome : world.review.outcome <;> simp_all [DocumentReviewState.cancel]
    rw [unchanged]
    exact {
      handles := { handles with
        ordered := .cancelCalled handles.ordered
        loading := fun settled => absurd settled loading
        shown := fun result ready => (handles.shown result ready).cons rfl
        seen := fun settled => absurd settled loading
        polling := fun _ settled => absurd settled loading }
      flight := transfer_flight inv.flight rfl rfl fun _ => mem_cons_of_mem _
      threads := { threads with
        located := fun settled => absurd settled loading } }

theorem pollToken (call : world.call = .none) {id : DocumentReviewOperationId} {token : CancellationToken}
    (latest : world.review.operation.latest = some (id, token)) : Inv { world with call := .polling (world.shared.isCancelled token) } := by
  obtain ⟨-, rfl, -⟩ := inv.handles.latest id token latest
  exact {
    handles := { inv.handles with
      polling := fun polling loading => by
        simp only [Call.polling.injEq, Shared.isCancelled] at polling
        refine (inv.handles.seen loading).resolve_right ?_
        rw [polling]
        nofun }
    flight := transfer_flight inv.flight rfl rfl fun _ member => member
    threads := { inv.threads with
      dropping := by
        rintro (impossible | shutdown)
        · cases impossible
        · exact inv.threads.dropping (.inr shutdown)
      dropped := by
        rw [inv.open_of_call (by simp [call])]
        simp
      located := fun loading active running => (inv.threads.located loading active running).transfer rfl rfl } }

theorem endCall (call : world.call ≠ .dropped) : Inv { world with call := .none } where
  handles := { inv.handles with polling := nofun }
  flight := transfer_flight inv.flight rfl rfl fun _ member => member
  threads := { inv.threads with
    dropping := by
      rintro (impossible | shutdown)
      · cases impossible
      · exact inv.threads.dropping (.inr shutdown)
    dropped := by
      rw [inv.open_of_call call]
      simp
    located := fun loading active running => (inv.threads.located loading active running).transfer rfl rfl }

theorem settle (call : world.call ≠ .dropped) {review : DocumentReviewState α ε} {shared : Shared α ε}
    {log : List (Event α ε)} (settled : review.outcome ≠ .loading)
    (sequence : review.operation.sequence = world.review.operation.sequence) (current : review.current = world.review.current)
    (ordered : Ordered review.operation.sequence log) (shown : ∀ result, review.outcome = .ready result → Shown review.operation.sequence log result)
    (flight : Flight { world with review, shared, call := .none, log }) (opened : shared.shutdown = world.shared.shutdown)
    (latest : review.operation.latest = world.review.operation.latest ∧ shared.mailbox = world.shared.mailbox ∨
      review.operation.latest = none ∧ shared.mailbox.latest = none) : Inv { world with review, shared, call := .none, log } where
  handles := {
    ordered
    mailbox := by
      rcases latest with ⟨same, mailbox⟩ | ⟨forgotten, mailbox⟩
      · simpa only [same, mailbox] using inv.handles.mailbox
      · simp only [forgotten, mailbox, Option.map_none]
    latest := by
      intro id token known
      rcases latest with ⟨same, -⟩ | ⟨forgotten, -⟩
      · simpa only [sequence, current] using inv.handles.latest id token (same ▸ known)
      · exact absurd (forgotten.symm.trans known) nofun
    loading := fun loading => absurd loading settled
    shown
    seen := fun loading => absurd loading settled
    polling := nofun }
  flight
  threads := { inv.threads with
    dropping := fun _ loading => absurd loading settled
    dropped := by simp [opened, inv.open_of_call call]
    located := fun loading => absurd loading settled }

omit inv in
theorem flight_forgets (flight : Flight world)
    (pending : next.shared.mailbox.pending = none ∨ next.shared.mailbox.pending = world.shared.mailbox.pending)
    (completed : next.shared.mailbox.completed = none) (worker : next.worker = world.worker) (log : ∀ event ∈ world.log, event ∈ next.log) :
    Flight next := by
  refine shrink_flight flight (fun job waits => ?_) (by simp [completed]) (by simp [worker]) (by simp [worker]) log
  rcases pending with gone | kept
  · exact absurd (gone.symm.trans waits) nofun
  · exact kept ▸ waits

theorem ordered_settled (loading : world.review.outcome = .loading) :
    Ordered world.review.operation.sequence (.settled world.review.current :: world.log) := by
  rw [inv.current_of_loading loading]
  exact .settled inv.handles.ordered (inv.handles.loading loading).2.2

theorem pollMailbox {cancelled : Bool} (call : world.call = .polling cancelled) {id : DocumentReviewOperationId}
    {result : Except (DocumentReviewOperationError ε) Bool} {review : DocumentReviewState α ε} {shared : Shared α ε}
    (same : id = world.review.operation.sequence) (polled : Polled world.review world.shared id cancelled result review shared) :
    Inv { world with review, shared, call := .none, log := pollLog result world } := by
  have calling : world.call ≠ .dropped := by simp [call]
  cases polled with
  | refused => exact inv.endCall calling
  | poisoned loading =>
    refine inv.settle calling nofun rfl rfl (inv.ordered_settled loading) nofun ?_ (by simp) (.inl ⟨rfl, by simp⟩)
    exact transfer_flight inv.flight (by simp) rfl fun _ => mem_cons_of_mem _
  | nothing uncancelled absent =>
    have ended := inv.endCall calling
    exact {
      handles := { ended.handles with }
      flight := flight_forgets inv.flight (.inr rfl) rfl rfl fun _ member => member
      threads := { ended.threads with
        located := fun loading active running => by
          cases inv.threads.located loading active running with
          | pending waits same => exact .pending waits same
          | held holds same => exact .held holds same
          | completed done other => exact absurd (other.trans same.symm) (absent _ done) } }
  | @settled completion pending other source kept loading =>
    subst same
    refine inv.settle calling (outcomeOf_ne_loading _) rfl rfl (inv.ordered_settled loading) ?_ ?_ rfl (.inr ⟨rfl, rfl⟩)
    · intro value ready
      have succeeded := outcomeOf_eq_ready ready
      rw [succeeded] at source
      obtain ⟨-, impossible⟩ | ⟨uncancelled, done | impossible⟩ := source
      · cases impossible
      · obtain ⟨-, -, request, result, returned, mapped⟩ := inv.flight.completed completion done
        cases result with
        | error => exact absurd (succeeded.symm.trans mapped) nofun
        | ok found =>
          cases succeeded.symm.trans mapped
          rw [other] at returned
          have polling := inv.handles.polling (uncancelled ▸ call) loading
          have settles := shown_of_returned inv.handles.ordered (inv.handles.loading loading).2.1 polling returned
          simpa only [pollLog, inv.current_of_loading loading] using settles
      · cases impossible
    · exact flight_forgets inv.flight kept rfl rfl fun _ => mem_cons_of_mem _
  | stale kept settled =>
    refine inv.settle calling settled rfl rfl inv.handles.ordered inv.handles.shown ?_ rfl (.inr ⟨rfl, rfl⟩)
    exact flight_forgets inv.flight kept rfl rfl fun _ member => member

theorem pollMailbox_step {cancelled : Bool} (call : world.call = .polling cancelled) {lock : TryLock}
    (stepped : world.step (.pollMailbox lock) = some next) : Inv next := by
  rw [pollMailbox_eq call] at stepped
  cases stepped
  cases latest : world.review.operation.latest with
  | none =>
    have idle : world.review.poll lock cancelled world.shared = (.ok false, world.review, world.shared) := by
      simp [DocumentReviewState.poll, DocumentReviewOperation.poll, latest]
    rw [idle]
    exact inv.endCall (by simp [call])
  | some pair =>
    obtain ⟨id, token⟩ := pair
    obtain ⟨same, -, current⟩ := inv.handles.latest id token latest
    exact inv.pollMailbox call same (polled lock cancelled world.review world.shared latest (same ▸ current))

theorem drop (call : world.call = .none) :
    Inv { world with call := .dropping, shared := world.review.operation.cancelLatest world.shared } where
  handles := { inv.handles with
    mailbox := by simpa using inv.handles.mailbox
    seen := fun loading => .inr (inv.cancelled_of_loading loading)
    polling := nofun }
  flight := transfer_flight inv.flight (by simp) rfl fun _ member => member
  threads := { inv.threads with
    dropping := fun _ loading => inv.cancelled_of_loading loading
    dropped := by simp [inv.open_of_call, call]
    located := fun loading active => absurd ((inv.cancelled_of_loading loading).symm.trans active) nofun }

theorem shutdown (call : world.call = .dropping) :
    Inv { world with call := .dropped, shared := { world.shared with shutdown := true } } where
  handles := { inv.handles with polling := nofun }
  flight := transfer_flight inv.flight rfl rfl fun _ member => member
  threads := { inv.threads with
    dropping := fun _ => inv.threads.dropping (.inl call)
    dropped := by simp
    located := fun loading active => absurd ((inv.threads.dropping (.inl call) loading).symm.trans active) nofun }

theorem withWorker {supervisor : Supervisor} {worker : Worker α ε} (keeps : ∀ job, worker.job = some job → world.worker.job = some job)
    (returned : ∀ job result, worker = .returned job result → world.worker = .returned job result)
    (starting : supervisor = .starting → worker = .unstarted) (finished : supervisor ≠ .starting → supervisor ≠ .joining → worker = .ended)
    (located : worker ≠ .ended → world.review.outcome = .loading → world.shared.tokens world.review.operation.sequence = false →
      world.worker ≠ .ended ∧ ∀ job, world.worker.job = some job → job.id = world.review.operation.sequence → worker.job = some job) :
    Inv { world with supervisor, worker } where
  handles := { inv.handles with }
  flight := shrink_flight inv.flight (fun _ waits => waits) (fun _ done => ⟨done, rfl⟩) keeps returned fun _ member => member
  threads := { inv.threads with
    starting, finished
    located := fun loading active running => by
      obtain ⟨before, holding⟩ := located running loading active
      cases inv.threads.located loading active before with
      | pending waits same => exact .pending waits same
      | held holds same => exact .held (holding _ holds same) same
      | completed done same => exact .completed done same }

theorem joining_of_worker (started : world.worker ≠ .unstarted) (running : world.worker ≠ .ended) : world.supervisor = .joining := by
  by_contra other
  exact running (inv.threads.finished (fun starting => started (inv.threads.starting starting)) other)

theorem setWorker (worker : Worker α ε) (started : world.worker ≠ .unstarted) (running : world.worker ≠ .ended)
    (keeps : ∀ job, worker.job = some job → world.worker.job = some job) (returned : ∀ job result, worker ≠ .returned job result)
    (located : worker ≠ .ended → world.review.outcome = .loading → world.shared.tokens world.review.operation.sequence = false →
      ∀ job, world.worker.job = some job → job.id = world.review.operation.sequence → worker.job = some job) :
    Inv { world with worker } := by
  have joining := inv.joining_of_worker started running
  refine inv.withWorker keeps (fun job result same => absurd same (returned job result)) ?_ ?_
    fun lives loading active => ⟨running, located lives loading active⟩
  · exact fun starting => absurd (joining.symm.trans starting) nofun
  · exact fun _ other => absurd joining other

end

variable {job : Job}

theorem take (inv : Inv world) (waiting : world.worker = .waiting) (waits : world.shared.mailbox.pending = some job) :
    Inv { world with
      worker := .taken job
      shared := { world.shared with mailbox := { world.shared.mailbox with pending := none } } } := by
  have joining := inv.joining_of_worker (by simp [waiting]) (by simp [waiting])
  obtain ⟨token, known, -⟩ := inv.flight.pending job waits
  exact {
    handles := { inv.handles with }
    flight := {
      pending := nofun
      held := by
        rintro held same
        cases same
        exact ⟨token, known⟩
      returned := nofun
      completed := fun completion done => by
        obtain ⟨latest, apart, source⟩ := inv.flight.completed completion done
        refine ⟨latest, ?_, source⟩
        rintro other (gone | same)
        · cases gone
        · cases same
          exact apart job (.inl waits) }
    threads := { inv.threads with
      starting := fun starting => absurd (joining.symm.trans starting) nofun
      finished := fun _ other => absurd joining other
      located := fun loading active running => by
        cases inv.threads.located loading active (by simp [waiting]) with
        | pending same other =>
          cases waits.symm.trans same
          exact .held rfl other
        | held holds => simp [waiting, Worker.job] at holds
        | completed done same => exact .completed done same } }

theorem reviewCancels (inv : Inv world) (token : CancellationToken) : Inv { world with shared := world.shared.cancel token } := by
  have cancels : ∀ other, world.shared.tokens other = true → (world.shared.cancel token).tokens other = true := by
    intro other cancelled
    simp [Shared.cancel, cancelled]
  exact {
    handles := { inv.handles with
      seen := fun loading => (inv.handles.seen loading).imp_right (cancels _) }
    flight := transfer_flight inv.flight rfl rfl fun _ member => member
    threads := { inv.threads with
      dropping := fun place loading => cancels _ (inv.threads.dropping place loading)
      located := fun loading active running => by
        refine (inv.threads.located loading ?_ running).transfer rfl rfl
        by_contra cancelled
        exact absurd ((cancels _ (by simpa using cancelled)).symm.trans active) nofun } }

theorem reviewReturns (inv : Inv world) (reviewing : world.worker = .reviewing job) (result : Except (DocumentReviewError ε) α) :
    Inv { world with worker := .returned job result, log := .returned job.id job.request result :: world.log } := by
  have joining := inv.joining_of_worker (by simp [reviewing]) (by simp [reviewing])
  have holds : world.worker.job = some job := by simp [reviewing, Worker.job]
  obtain ⟨token, known⟩ := inv.flight.held job holds
  have quiet : Uncancelled (.returned job.id job.request result :: world.log) ↔ Uncancelled world.log :=
    Uncancelled.cons_iff rfl nofun
  exact {
    handles := { inv.handles with
      ordered := .returned result inv.handles.ordered known
      loading := fun loading => by simpa using inv.handles.loading loading
      shown := fun value ready => (inv.handles.shown value ready).cons rfl
      seen := fun loading => (inv.handles.seen loading).imp_left quiet.mpr
      polling := fun polling loading => quiet.mpr (inv.handles.polling polling loading) }
    flight := {
      pending := fun waiting waits => by
        obtain ⟨same, accepted, apart⟩ := inv.flight.pending waiting waits
        exact ⟨same, mem_cons_of_mem _ accepted, fun other same => apart other (holds.trans same)⟩
      held := by
        rintro other same
        cases same
        exact ⟨token, mem_cons_of_mem _ known⟩
      returned := by
        rintro other found same
        cases same
        exact mem_cons_self
      completed := fun completion done => by
        obtain ⟨latest, apart, request, found, returned, same⟩ := inv.flight.completed completion done
        refine ⟨latest, fun other place => apart other ?_, request, found, mem_cons_of_mem _ returned, same⟩
        exact place.imp_right fun same => holds.trans same }
    threads := { inv.threads with
      starting := fun starting => absurd (joining.symm.trans starting) nofun
      finished := fun _ other => absurd joining other
      located := fun loading active _ => by
        cases inv.threads.located loading active (by simp [reviewing]) with
        | pending waits same => exact .pending waits same
        | held other same => exact .held (holds.symm.trans other) same
        | completed done same => exact .completed done same } }

theorem store (inv : Inv world) {result : Except (DocumentReviewError ε) α} (holds : world.worker = .returned job result) :
    Inv (world.storeResult job result) := by
  have held : world.worker.job = some job := by simp [holds, Worker.job]
  obtain ⟨token, known⟩ := inv.flight.held job held
  rw [World.storeResult]
  split
  next waited =>
    obtain ⟨-, active, latest⟩ := waited
    have joining := inv.joining_of_worker (by simp [holds]) (by simp [holds])
    exact {
      handles := { inv.handles with }
      flight := {
        pending := fun waiting waits => ⟨(inv.flight.pending waiting waits).1, (inv.flight.pending waiting waits).2.1, nofun⟩
        held := nofun
        returned := nofun
        completed := by
          rintro completion same
          cases same
          refine ⟨latest, ?_, job.request, result, inv.flight.returned job result holds, rfl⟩
          rintro other (waits | impossible)
          · exact fun same => (inv.flight.pending other waits).2.2 job held same.symm
          · cases impossible }
      threads := { inv.threads with
        starting := fun starting => absurd (joining.symm.trans starting) nofun
        finished := fun _ other => absurd joining other
        located := fun loading active _ => by
          cases inv.threads.located loading active (by simp [holds]) with
          | pending waits same => exact .pending waits same
          | held other same =>
            cases held.symm.trans other
            exact .completed rfl same
          | completed done same =>
            have current := (inv.flight.completed _ done).1
            exact .completed rfl (Option.some.inj ((latest.symm.trans current).trans (congrArg some same))) } }
  next refused =>
    refine inv.setWorker _ (by simp [holds]) (by simp [holds]) nofun nofun ?_
    intro _ loading active other same latest
    cases held.symm.trans same
    -- A loading operation that is not cancelled is still the mailbox's, and the state is not dropped.
    refine absurd ⟨?_, ?_, ?_⟩ refused
    · by_contra shutdown
      exact absurd ((inv.threads.dropping (.inr (by simpa using shutdown)) loading).symm.trans active) nofun
    · rw [Shared.isCancelled, token, latest, active]
    · rw [inv.handles.mailbox, inv.latest_of_loading loading, latest]
      rfl

theorem cleanUp (inv : Inv world) (cleaning : world.supervisor = .cleaning) : Inv world.cleanUp where
  handles := { inv.handles with }
  flight := by
    refine shrink_flight inv.flight nofun (fun completion done => ⟨?_, rfl⟩) (fun _ holds => holds) (fun _ _ holds => holds) fun _ member => member
    cases shutdown : world.shared.shutdown <;> simp_all [World.cleanUp]
  threads := { inv.threads with
    starting := nofun
    finished := fun _ _ => inv.threads.finished (by simp [cleaning]) (by simp [cleaning])
    located := fun _ _ running => absurd (inv.threads.finished (by simp [cleaning]) (by simp [cleaning])) running }

theorem supervise (inv : Inv world) (supervisor : Supervisor) (ended : world.worker = .ended) (later : supervisor ≠ .starting)
    (stopped : Bool) : Inv { world with supervisor, shared := { world.shared with stopped } } where
  handles := { inv.handles with }
  flight := transfer_flight inv.flight rfl rfl fun _ member => member
  threads := { inv.threads with
    starting := fun starting => absurd starting later
    finished := fun _ _ => ended
    located := fun _ _ running => absurd ended running }

theorem step {action : World.Action α ε} (inv : Inv world) (stepped : world.step action = some next) : Inv next := by
  obtain ⟨shared, review, call, worker, supervisor, log⟩ := world
  cases action with
  | submit lock request =>
    cases call with
    | none =>
      obtain ⟨error, refused⟩ | accepted := submit_cases lock review shared request
      · simp only [World.step, refused, Option.some.injEq] at stepped
        exact stepped ▸ inv
      · simp only [World.step, accepted, Option.some.injEq] at stepped
        exact stepped ▸ inv.submit rfl request _
    | _ => cases stepped
  | cancel =>
    cases call with
    | none =>
      cases stepped
      exact inv.cancel rfl
    | _ => cases stepped
  | pollToken =>
    cases call with
    | none =>
      cases latest : review.operation.latest with
      | none =>
        simp only [World.step, latest, Option.some.injEq] at stepped
        exact stepped ▸ inv
      | some pair =>
        simp only [World.step, latest, Option.some.injEq] at stepped
        exact stepped ▸ inv.pollToken rfl latest
    | _ => cases stepped
  | pollMailbox lock =>
    cases call with
    | polling cancelled =>
      exact pollMailbox_step inv rfl stepped
    | _ => cases stepped
  | drop =>
    cases call with
    | none =>
      cases stepped
      exact inv.drop rfl
    | _ => cases stepped
  | shutdown =>
    cases call with
    | dropping =>
      cases stepped
      exact inv.shutdown rfl
    | _ => cases stepped
  | spawn succeeds =>
    cases supervisor with
    | starting =>
      cases inv.threads.starting rfl
      cases succeeds with
      | true =>
        cases stepped
        exact inv.withWorker nofun nofun nofun (by simp) fun _ _ _ => ⟨nofun, nofun⟩
      | false =>
        cases stepped
        exact inv.withWorker nofun nofun nofun (fun _ _ => rfl) fun ended => absurd rfl ended
    | _ => cases stepped
  | join =>
    cases supervisor with
    | joining =>
      cases worker with
      | ended =>
        cases stepped
        exact inv.supervise .cleaning rfl (by simp) _
      | _ => cases stepped
    | _ => cases stepped
  | cleanUp locks =>
    cases supervisor with
    | cleaning =>
      cases locks with
      | true =>
        cases stepped
        exact inv.cleanUp rfl
      | false =>
        cases stepped
        exact inv.supervise .stopping (inv.threads.finished (by simp) (by simp)) (by simp) _
    | _ => cases stepped
  | stop =>
    cases supervisor with
    | stopping =>
      cases stepped
      exact inv.supervise .gone (inv.threads.finished (by simp) (by simp)) (by simp) _
    | _ => cases stepped
  | take locks =>
    cases worker with
    | waiting =>
      have ends := inv.setWorker .ended nofun nofun nofun nofun (by simp)
      cases locks with
      | true =>
        simp only [World.step, World.takeJob] at stepped
        split at stepped
        · exact Option.some.inj stepped ▸ ends
        · cases waits : shared.mailbox.pending with
          | none => simp [waits] at stepped
          | some job =>
            simp only [waits, Option.some.injEq] at stepped
            exact stepped ▸ inv.take rfl waits
      | false =>
        cases stepped
        exact ends
    | _ => cases stepped
  | check =>
    cases worker with
    | taken job =>
      cases stepped
      refine inv.setWorker _ nofun nofun ?_ ?_ ?_
      · split
        · nofun
        · exact fun _ same => same
      · intro job result
        split <;> nofun
      · intro _ _ active other same latest
        cases same
        have token : job.cancellation = review.operation.sequence := (inv.flight.held job rfl).1.trans latest
        have uncancelled : shared.isCancelled job.cancellation = false := by
          rw [token]
          exact active
        rw [uncancelled]
        rfl
    | _ => cases stepped
  | reviewCancels =>
    cases worker with
    | reviewing job =>
      cases stepped
      exact inv.reviewCancels job.cancellation
    | _ => cases stepped
  | reviewReturns result =>
    cases worker with
    | reviewing job =>
      cases stepped
      exact inv.reviewReturns rfl result
    | _ => cases stepped
  | reviewPanics =>
    cases worker with
    | reviewing job =>
      cases stepped
      exact inv.setWorker _ nofun nofun nofun nofun (by simp)
    | _ => cases stepped
  | store locks =>
    cases worker with
    | returned job result =>
      cases locks with
      | true =>
        cases stepped
        exact inv.store rfl
      | false =>
        cases stepped
        exact inv.setWorker _ nofun nofun nofun nofun (by simp)
    | _ => cases stepped

end Inv

theorem inv_of_reachable (reachable : world.Reachable) : Inv world := by
  induction reachable with
  | new => exact inv_new
  | step _ stepped inv => exact inv.step stepped

variable {action : World.Action α ε}

/-- Only a submit or the locked part of a poll changes what is shown. -/
theorem outcome_kept (stepped : world.step action = some next)
    (notSubmit : ∀ lock request, action ≠ .submit lock request) (notPoll : ∀ lock, action ≠ .pollMailbox lock) :
    next.review.outcome = world.review.outcome := by
  obtain ⟨shared, review, call, worker, supervisor, log⟩ := world
  cases action with
  | submit lock request => exact absurd rfl (notSubmit lock request)
  | pollMailbox lock => exact absurd rfl (notPoll lock)
  | cancel =>
    have kept : (review.cancel shared).1.outcome = review.outcome := by
      rw [DocumentReviewState.cancel]
      split <;> rfl
    cases call <;> cases stepped
    exact kept
  | pollToken =>
    simp only [World.step] at stepped
    split at stepped <;> cases stepped <;> rfl
  | drop => cases call <;> cases stepped; rfl
  | shutdown => cases call <;> cases stepped; rfl
  | spawn succeeds => cases supervisor <;> cases succeeds <;> cases stepped <;> rfl
  | join => cases supervisor <;> cases worker <;> cases stepped; rfl
  | cleanUp locks => cases supervisor <;> cases locks <;> cases stepped <;> rfl
  | stop => cases supervisor <;> cases stepped; rfl
  | take locks =>
    simp only [World.step, World.takeJob] at stepped
    repeat' split at stepped
    all_goals cases stepped <;> rfl
  | check => cases worker <;> cases stepped; rfl
  | reviewCancels => cases worker <;> cases stepped; rfl
  | reviewReturns result => cases worker <;> cases stepped; rfl
  | reviewPanics => cases worker <;> cases stepped; rfl
  | store locks =>
    simp only [World.step, World.storeResult] at stepped
    repeat' split at stepped
    all_goals cases stepped <;> rfl

/-- A step leaves the loading phase by settling the latest operation, and any other phase by
accepting the next one. -/
structure PhaseRule (world : World α ε) (action : World.Action α ε) (next : World α ε) : Prop where
  settles : world.review.outcome = .loading → next.review.outcome ≠ .loading →
    next.log = .settled (some world.review.operation.sequence) :: world.log
  restarts : world.review.outcome ≠ .loading → next.review.outcome ≠ world.review.outcome → ∃ lock request,
    action = .submit lock request ∧ next.log = .accepted (world.review.operation.sequence + 1) request :: world.log

theorem PhaseRule.of_kept (kept : next.review.outcome = world.review.outcome) : PhaseRule world action next where
  settles loading settled := absurd (kept.trans loading) settled
  restarts _ changed := absurd kept changed

theorem Inv.phaseRule (inv : Inv world) (stepped : world.step action = some next) : PhaseRule world action next := by
  cases action with
  | submit lock request =>
    cases call : world.call with
    | none =>
      obtain ⟨error, refused⟩ | accepted := submit_cases lock world.review world.shared request
      · simp only [World.step, call, refused, Option.some.injEq] at stepped
        exact .of_kept (stepped ▸ rfl)
      · simp only [World.step, call, accepted, Option.some.injEq] at stepped
        subst stepped
        exact ⟨fun _ settled => absurd rfl settled, fun _ _ => ⟨lock, request, rfl, rfl⟩⟩
    | _ => simp [World.step, call] at stepped
  | pollMailbox lock =>
    cases call : world.call with
    | polling cancelled =>
      rw [pollMailbox_eq call] at stepped
      cases stepped
      cases latest : world.review.operation.latest with
      | none => exact .of_kept (by simp [DocumentReviewState.poll, DocumentReviewOperation.poll, latest])
      | some pair =>
        obtain ⟨id, token⟩ := pair
        obtain ⟨same, -, current⟩ := inv.handles.latest id token latest
        have polled := polled lock cancelled world.review world.shared latest (same ▸ current)
        revert polled
        generalize world.review.poll lock cancelled world.shared = answer
        obtain ⟨result, review, shared⟩ := answer
        intro polled
        cases polled with
        | refused => exact .of_kept rfl
        | poisoned loading => exact ⟨fun _ _ => by rw [← current]; rfl, fun settled => absurd loading settled⟩
        | nothing => exact .of_kept rfl
        | settled _ _ _ loading => exact ⟨fun _ _ => by rw [← current]; rfl, fun settled => absurd loading settled⟩
        | stale => exact .of_kept rfl
    | _ => simp [World.step, call] at stepped
  | _ => exact .of_kept (outcome_kept stepped nofun nofun)

/-- The latest operation is in exactly one place: waiting, with the worker, or completed. -/
def InOnePlace (world : World α ε) (id : DocumentReviewOperationId) : Prop :=
  let waits := world.shared.mailbox.pending.map Job.id = some id
  let held := world.worker.job.map Job.id = some id
  let done := world.shared.mailbox.completed.map DocumentReviewOperationCompletion.operationId = some id
  (waits ∨ held ∨ done) ∧ ¬(waits ∧ held) ∧ ¬(waits ∧ done) ∧ ¬(held ∧ done)

theorem Flight.inOnePlace (flight : Flight world) (located : Located world id) : InOnePlace world id := by
  simp only [InOnePlace, Option.map_eq_some_iff]
  refine ⟨?_, ?_, ?_, ?_⟩
  · cases located with
    | pending waits same => exact .inl ⟨_, waits, same⟩
    | held holds same => exact .inr (.inl ⟨_, holds, same⟩)
    | completed done same => exact .inr (.inr ⟨_, done, same⟩)
  · rintro ⟨⟨job, waits, rfl⟩, other, holds, same⟩
    exact (flight.pending job waits).2.2 other holds same
  · rintro ⟨⟨job, waits, rfl⟩, completion, done, same⟩
    exact (flight.completed completion done).2.1 job (.inl waits) same.symm
  · rintro ⟨⟨job, holds, rfl⟩, completion, done, same⟩
    exact (flight.completed completion done).2.1 job (.inr holds) same.symm

theorem rejected_submit {after : DocumentReviewState α ε} {left : Shared α ε}
    {request : DocumentReviewOperationRequest} {failure : DocumentReviewOperationSubmissionFailure ε}
    (rejected : review.submit lock shared request = (.error failure, after, left)) :
    failure.request = request ∧ after = review ∧ left = shared := by
  obtain ⟨error, refused⟩ | accepted := submit_cases lock review shared request
  · cases rejected.symm.trans refused
    exact ⟨rfl, rfl, rfl⟩
  · exact absurd (rejected.symm.trans accepted) (by simp)

theorem acquired_poll (cancelled : Bool) (operation : DocumentReviewOperation) (shared : Shared α ε) :
    ∃ found after left, operation.poll .acquired cancelled shared = (.ok found, after, left) := by
  simp only [DocumentReviewOperation.poll, DocumentReviewOperation.mailbox]
  repeat' split
  all_goals exact ⟨_, _, _, rfl⟩

theorem busy_poll {after : DocumentReviewState α ε} {left : Shared α ε}
    (busy : review.poll lock cancelled shared = (.error .busy, after, left)) : after = review ∧ left = shared := by
  cases latest : review.operation.latest with
  | none => simp [DocumentReviewState.poll, DocumentReviewOperation.poll, latest] at busy
  | some pair =>
    cases lock with
    | wouldBlock =>
      simp only [DocumentReviewState.poll, DocumentReviewOperation.poll, latest, DocumentReviewOperation.mailbox, Prod.mk.injEq] at busy
      exact ⟨busy.2.1.symm, busy.2.2.symm⟩
    | poisoned =>
      simp only [DocumentReviewState.poll, DocumentReviewOperation.poll, latest, DocumentReviewOperation.mailbox] at busy
      split at busy <;> simp at busy
    | acquired =>
      obtain ⟨found, operation, kept, polls⟩ := acquired_poll cancelled review.operation shared
      simp only [DocumentReviewState.poll, polls] at busy
      cases found <;> simp at busy

theorem review_shows_only_latest_result {world : World α ε} (reachable : world.Reachable) :
    world.log.reverse.filterMap Event.acceptedId = List.range' 1 world.review.operation.sequence ∧
      (∀ result, world.review.outcome = .ready result → Shown world.review.operation.sequence world.log result) ∧
      (world.log.filterMap Event.settledId).Nodup ∧ (∀ action next, world.step action = some next → PhaseRule world action next) ∧
      (∀ lock request failure review shared, world.review.submit lock world.shared request = (.error failure, review, shared) →
        failure.request = request ∧ review = world.review ∧ shared = world.shared) ∧
      (∀ lock cancelled review shared, world.review.poll lock cancelled world.shared = (.error .busy, review, shared) →
        review = world.review ∧ shared = world.shared) ∧
      (world.review.phase = .loading → world.worker ≠ .ended → ∃ id token, world.review.operation.latest = some (id, token) ∧
        (world.shared.isCancelled token = false → InOnePlace world id)) := by
  have inv := inv_of_reachable reachable
  refine ⟨inv.handles.ordered.accepted_ids, inv.handles.shown, inv.handles.ordered.settled_nodup, fun _ _ => inv.phaseRule,
    fun _ _ _ _ _ => rejected_submit, fun _ _ _ _ => busy_poll, fun phase running => ?_⟩
  have loading := phase_eq_loading.mp phase
  exact ⟨_, _, inv.latest_of_loading loading, fun active => inv.flight.inOnePlace (inv.threads.located loading active running)⟩

theorem reachable_of_run (actions : List (World.Action α ε)) {start : World α ε} (reachable : start.Reachable)
    (ran : actions.foldlM World.step start = some world) : world.Reachable := by
  induction actions generalizing start with
  | nil =>
    cases ran
    exact reachable
  | cons action rest ih =>
    obtain ⟨next, stepped, continued⟩ := Option.bind_eq_some_iff.mp ran
    exact ih (.step reachable stepped) continued

/-- A request that is replaced while it is being reviewed, and the result of the one that replaces it. -/
theorem review_shows_only_latest_result_replaced :
    ∃ world : World Nat Unit, world.Reachable ∧ world.review.outcome = .ready 5 ∧ Shown 2 world.log 5 := by
  have reachable := reachable_of_run
    [.spawn true, .submit .acquired ⟨[1], none, []⟩, .take true, .check, .submit .wouldBlock ⟨[2], none, []⟩,
      .submit .acquired ⟨[2], none, []⟩, .reviewReturns (.ok 4), .store true, .pollToken, .pollMailbox .acquired, .take true, .check,
      .reviewReturns (.ok 5), .store true, .pollToken, .pollMailbox .wouldBlock, .pollToken, .pollMailbox .acquired]
    (World.Reachable.new (α := Nat) (ε := Unit)) rfl
  exact ⟨_, reachable, rfl, (review_shows_only_latest_result reachable).2.1 5 rfl⟩

end Retonr.DocumentReview
