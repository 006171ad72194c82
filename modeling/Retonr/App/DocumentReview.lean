import Retonr.Lib.Text

/-! Background document review: one thread submits, cancels and polls, a worker runs the latest
request, and a supervisor cleans up once the worker has ended. A locked section of the mailbox, an
operation on a token and an access to a flag are one step each. Taking a lock without waiting may
fail at any time, a mailbox may be found poisoned at any time, and the review function may return
anything, panic, or cancel the token it was given. -/

namespace Retonr.DocumentReview

/-- A complete review payload. -/
structure DocumentReviewOperationRequest where
  source : Bytes
  candidate : Option Bytes
  protectedTerms : List Text

namespace DocumentReviewOperationRequest

def sourceBytes (request : DocumentReviewOperationRequest) : Nat := request.source.length

def candidateBytes (request : DocumentReviewOperationRequest) : Option Nat := request.candidate.map List.length

end DocumentReviewOperationRequest

inductive DocumentReviewError (ε : Type) where
  | cancelled
  | failed (fault : ε)

inductive DocumentReviewOperationError (ε : Type) where
  | busy
  | stopped
  | identifierExhausted
  | cancelled
  | review (error : DocumentReviewError ε)

abbrev DocumentReviewOperationId := Nat

/-- A token is named after the operation it was made for. -/
abbrev CancellationToken := Nat

structure Job where
  id : DocumentReviewOperationId
  request : DocumentReviewOperationRequest
  cancellation : CancellationToken

structure DocumentReviewOperationCompletion (α ε : Type) where
  operationId : DocumentReviewOperationId
  result : Except (DocumentReviewOperationError ε) α

structure DocumentReviewOperationSubmissionFailure (ε : Type) where
  request : DocumentReviewOperationRequest
  error : DocumentReviewOperationError ε

structure Mailbox (α ε : Type) where
  latest : Option DocumentReviewOperationId
  pending : Option Job
  completed : Option (DocumentReviewOperationCompletion α ε)

/-- What the threads share. -/
structure Shared (α ε : Type) where
  mailbox : Mailbox α ε
  (shutdown stopped : Bool)
  tokens : CancellationToken → Bool

namespace Shared

variable {α ε : Type}

def new : Shared α ε := ⟨⟨none, none, none⟩, false, false, fun _ => false⟩

def isCancelled (shared : Shared α ε) (token : CancellationToken) : Bool := shared.tokens token

def setToken (shared : Shared α ε) (token : CancellationToken) (cancelled : Bool) : Shared α ε :=
  { shared with tokens := fun other => if other = token then cancelled else shared.tokens other }

def cancel (shared : Shared α ε) (token : CancellationToken) : Shared α ε := shared.setToken token true

end Shared

/-- How an attempt to take the lock without waiting ends. -/
inductive TryLock where
  | acquired
  | wouldBlock
  | poisoned

structure DocumentReviewOperation where
  sequence : Nat
  latest : Option (DocumentReviewOperationId × CancellationToken)

namespace DocumentReviewOperation

variable {α ε : Type}

def mailbox (lock : TryLock) : Except (DocumentReviewOperationError ε) Unit :=
  match lock with
  | .acquired => .ok ()
  | .wouldBlock => .error .busy
  | .poisoned => .error .stopped

def cancelLatest (operation : DocumentReviewOperation) (shared : Shared α ε) : Shared α ε :=
  match operation.latest with
  | some (_, cancellation) => shared.cancel cancellation
  | none => shared

def submit (lock : TryLock) (operation : DocumentReviewOperation) (shared : Shared α ε) (request : DocumentReviewOperationRequest) :
    Except (DocumentReviewOperationSubmissionFailure ε) DocumentReviewOperationId × DocumentReviewOperation × Shared α ε :=
  if 2 ^ 64 ≤ operation.sequence + 1 then (.error ⟨request, .identifierExhausted⟩, operation, shared)
  else
    match mailbox lock with
    | .error error => (.error ⟨request, error⟩, operation, shared)
    | .ok () =>
        if shared.shutdown || shared.stopped then (.error ⟨request, .stopped⟩, operation, shared)
        else
          let id := operation.sequence + 1
          let shared := (operation.cancelLatest shared).setToken id false
          (.ok id, ⟨id, some (id, id)⟩, { shared with mailbox := ⟨some id, some ⟨id, request, id⟩, none⟩ })

/-- The locked part of a poll, for the token as it was read before. -/
def poll (lock : TryLock) (cancelled : Bool) (operation : DocumentReviewOperation) (shared : Shared α ε) :
    Except (DocumentReviewOperationError ε) (Option (DocumentReviewOperationCompletion α ε)) × DocumentReviewOperation × Shared α ε :=
  match operation.latest with
  | none => (.ok none, operation, shared)
  | some (id, _) =>
      match mailbox lock with
      | .error error => (.error error, operation, shared)
      | .ok () =>
          if cancelled then
            (.ok (some ⟨id, .error .cancelled⟩), { operation with latest := none }, { shared with mailbox := ⟨none, none, none⟩ })
          else
            let completed := shared.mailbox.completed.filter fun completed => completed.operationId == id
            match completed.or (if shared.stopped then some ⟨id, .error .stopped⟩ else none) with
            | some completion =>
                (.ok (some completion), { operation with latest := none },
                  { shared with mailbox := ⟨none, shared.mailbox.pending, none⟩ })
            | none => (.ok none, operation, { shared with mailbox := { shared.mailbox with completed := none } })

end DocumentReviewOperation

inductive Outcome (α ε : Type) where
  | idle
  | loading
  | ready (result : α)
  | cancelled
  | failed (error : DocumentReviewOperationError ε)

structure DocumentReviewInputDisclosure where
  sourceBytes : Nat
  candidateBytes : Option Nat

structure DocumentReviewState (α ε : Type) where
  operation : DocumentReviewOperation
  current : Option DocumentReviewOperationId
  disclosure : Option DocumentReviewInputDisclosure
  cancellationRequested : Bool
  outcome : Outcome α ε

inductive DocumentReviewPhase where
  | idle
  | loading
  | ready
  | cancelled
  | failed
  deriving DecidableEq

namespace DocumentReviewState

variable {α ε : Type}

def new : DocumentReviewState α ε := ⟨⟨0, none⟩, none, none, false, .idle⟩

def phase (state : DocumentReviewState α ε) : DocumentReviewPhase :=
  match state.outcome with
  | .idle => .idle
  | .loading => .loading
  | .ready _ => .ready
  | .cancelled => .cancelled
  | .failed _ => .failed

def submit (lock : TryLock) (state : DocumentReviewState α ε) (shared : Shared α ε) (request : DocumentReviewOperationRequest) :
    Except (DocumentReviewOperationSubmissionFailure ε) DocumentReviewOperationId × DocumentReviewState α ε × Shared α ε :=
  let disclosure : DocumentReviewInputDisclosure := ⟨request.sourceBytes, request.candidateBytes⟩
  match state.operation.submit lock shared request with
  | (.error failure, operation, shared) => (.error failure, { state with operation }, shared)
  | (.ok id, operation, shared) =>
      (.ok id, { operation, current := some id, disclosure := some disclosure, cancellationRequested := false, outcome := .loading }, shared)

def cancel (state : DocumentReviewState α ε) (shared : Shared α ε) : DocumentReviewState α ε × Shared α ε :=
  match state.outcome with
  | .loading => ({ state with cancellationRequested := true }, state.operation.cancelLatest shared)
  | _ => (state, shared)

def apply (state : DocumentReviewState α ε) (completion : DocumentReviewOperationCompletion α ε) : Bool × DocumentReviewState α ε :=
  if state.phase ≠ .loading ∨ state.current ≠ some completion.operationId then (false, state)
  else
    (true, { state with outcome :=
      match completion.result with
      | .ok result => .ready result
      | .error .cancelled => .cancelled
      | .error (.review .cancelled) => .cancelled
      | .error error => .failed error })

def poll (lock : TryLock) (cancelled : Bool) (state : DocumentReviewState α ε) (shared : Shared α ε) :
    Except (DocumentReviewOperationError ε) Bool × DocumentReviewState α ε × Shared α ε :=
  match state.operation.poll lock cancelled shared with
  | (.ok (some completion), operation, shared) =>
      let (accepted, state) := apply { state with operation } completion
      (.ok accepted, state, shared)
  | (.ok none, operation, shared) => (.ok false, { state with operation }, shared)
  | (.error .busy, operation, shared) => (.error .busy, { state with operation }, shared)
  | (.error error, operation, shared) =>
      match state.outcome with
      | .loading => (.ok true, { state with operation, outcome := .failed error }, operation.cancelLatest shared)
      | _ => (.error error, { state with operation }, shared)

end DocumentReviewState

/-- Where the worker stands in its loop. -/
inductive Worker (α ε : Type) where
  | unstarted
  | waiting
  | taken (job : Job)
  | reviewing (job : Job)
  | returned (job : Job) (result : Except (DocumentReviewError ε) α)
  | ended

inductive Supervisor where
  | starting
  | joining
  | cleaning
  | stopping
  | gone
  deriving DecidableEq

/-- Where the calling thread stands: between calls, in a poll that has read the token, or dropping
the state. -/
inductive Call where
  | none
  | polling (cancelled : Bool)
  | dropping
  | dropped
  deriving DecidableEq

/-- What has happened, for statements about whole runs. -/
inductive Event (α ε : Type) where
  | accepted (id : DocumentReviewOperationId) (request : DocumentReviewOperationRequest)
  | cancelCalled
  | returned (id : DocumentReviewOperationId) (request : DocumentReviewOperationRequest) (result : Except (DocumentReviewError ε) α)
  | settled (id : Option DocumentReviewOperationId)

structure World (α ε : Type) where
  shared : Shared α ε
  review : DocumentReviewState α ε
  call : Call
  worker : Worker α ε
  supervisor : Supervisor
  /-- The newest event first. -/
  log : List (Event α ε)

namespace World

variable {α ε : Type}

def new : World α ε := ⟨.new, .new, .none, .unstarted, .starting, []⟩

/-- The locked section in which the worker takes a job or sees the shutdown. -/
def takeJob (world : World α ε) : Option (World α ε) :=
  if world.shared.shutdown then some { world with worker := .ended }
  else
    match world.shared.mailbox.pending with
    | some job =>
        some { world with
          worker := .taken job
          shared := { world.shared with mailbox := { world.shared.mailbox with pending := none } } }
    | none => none

/-- The locked section in which the worker hands a result in, unless nobody waits for it. -/
def storeResult (world : World α ε) (job : Job) (result : Except (DocumentReviewError ε) α) : World α ε :=
  if world.shared.shutdown = false ∧ world.shared.isCancelled job.cancellation = false ∧ world.shared.mailbox.latest = some job.id then
    { world with
      worker := .waiting
      shared := { world.shared with mailbox :=
        { world.shared.mailbox with completed := some ⟨job.id, result.mapError .review⟩ } } }
  else { world with worker := .waiting }

/-- The supervisor's locked section. -/
def cleanUp (world : World α ε) : World α ε :=
  { world with
    supervisor := .stopping
    shared := { world.shared with mailbox := { world.shared.mailbox with
      pending := none
      completed := if world.shared.shutdown then none else world.shared.mailbox.completed } } }

inductive Action (α ε : Type) where
  | submit (lock : TryLock) (request : DocumentReviewOperationRequest)
  | cancel
  | pollToken
  | pollMailbox (lock : TryLock)
  | drop
  | shutdown
  | spawn (succeeds : Bool)
  | join
  | cleanUp (locks : Bool)
  | stop
  | take (locks : Bool)
  | check
  | reviewCancels
  | reviewReturns (result : Except (DocumentReviewError ε) α)
  | reviewPanics
  | store (locks : Bool)

/-- One step of one of the threads; none where the thread is elsewhere. -/
def step (world : World α ε) : Action α ε → Option (World α ε)
  | .submit lock request =>
      match world.call, world.review.submit lock world.shared request with
      | .none, (.ok id, review, shared) => some { world with review, shared, log := .accepted id request :: world.log }
      | .none, (.error _, review, shared) => some { world with review, shared }
      | _, _ => none
  | .cancel =>
      match world.call, world.review.cancel world.shared with
      | .none, (review, shared) => some { world with review, shared, log := .cancelCalled :: world.log }
      | _, _ => none
  | .pollToken =>
      match world.call, world.review.operation.latest with
      | .none, some (_, cancellation) => some { world with call := .polling (world.shared.isCancelled cancellation) }
      | .none, none => some world
      | _, _ => none
  | .pollMailbox lock =>
      match world.call with
      | .polling cancelled =>
          match world.review.poll lock cancelled world.shared with
          | (.ok true, review, shared) =>
              some { world with review, shared, call := .none, log := .settled world.review.current :: world.log }
          | (_, review, shared) => some { world with review, shared, call := .none }
      | _ => none
  | .drop =>
      match world.call with
      | .none => some { world with call := .dropping, shared := world.review.operation.cancelLatest world.shared }
      | _ => none
  | .shutdown =>
      match world.call with
      | .dropping => some { world with call := .dropped, shared := { world.shared with shutdown := true } }
      | _ => none
  | .spawn succeeds =>
      match world.supervisor, succeeds with
      | .starting, true => some { world with supervisor := .joining, worker := .waiting }
      | .starting, false => some { world with supervisor := .cleaning, worker := .ended }
      | _, _ => none
  | .join =>
      match world.supervisor, world.worker with
      | .joining, .ended => some { world with supervisor := .cleaning }
      | _, _ => none
  | .cleanUp locks =>
      match world.supervisor, locks with
      | .cleaning, true => some world.cleanUp
      | .cleaning, false => some { world with supervisor := .stopping }
      | _, _ => none
  | .stop =>
      match world.supervisor with
      | .stopping => some { world with supervisor := .gone, shared := { world.shared with stopped := true } }
      | _ => none
  | .take locks =>
      match world.worker, locks with
      | .waiting, true => world.takeJob
      | .waiting, false => some { world with worker := .ended }
      | _, _ => none
  | .check =>
      match world.worker with
      | .taken job => some { world with worker := if world.shared.isCancelled job.cancellation then .waiting else .reviewing job }
      | _ => none
  | .reviewCancels =>
      match world.worker with
      | .reviewing job => some { world with shared := world.shared.cancel job.cancellation }
      | _ => none
  | .reviewReturns result =>
      match world.worker with
      | .reviewing job => some { world with worker := .returned job result, log := .returned job.id job.request result :: world.log }
      | _ => none
  | .reviewPanics =>
      match world.worker with
      | .reviewing _ => some { world with worker := .ended }
      | _ => none
  | .store locks =>
      match world.worker, locks with
      | .returned job result, true => some (world.storeResult job result)
      | .returned _ _, false => some { world with worker := .ended }
      | _, _ => none

/-- A world that some interleaving of the threads leads to. -/
inductive Reachable : World α ε → Prop
  | new : Reachable .new
  | step {world next : World α ε} {action : Action α ε} (reachable : Reachable world) (stepped : world.step action = some next) :
      Reachable next

end World

end Retonr.DocumentReview
