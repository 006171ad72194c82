import Retonr.App.ArtifactReconciliation
import Retonr.App.ArtifactRemoval

/-! Sequences of service calls over one managed root. The lock admits one call at a time, and
each call may fail or stop where its script says. -/

namespace Retonr
open Crash

inductive ServiceCall where
  | openImport (limits : ArtifactImportLimits)
  | importArtifact (limits : ArtifactImportLimits) (names : List Text) (request : OfflineArtifactImportRequest)
  | remove (limits : ArtifactRemovalLimits) (request : ArtifactRemovalRequest)
  | reconcile (limits : ArtifactReconciliationLimits) (request : ArtifactOrphanReconciliationRequest)

inductive ServiceReply where
  | opened (result : Except ArtifactImportError Unit)
  | imported (result : Except ArtifactImportError ArtifactImportResult)
  | removed (result : Except ArtifactRemovalError ArtifactRemovalResult)
  | reconciled (result : Except ArtifactReconciliationError ArtifactOrphanReconciliationResult)

def ServiceCall.perform : ServiceCall → Program ManagedState Empty ServiceReply
  | .openImport limits => do
      let result ← (OfflineArtifactImport.openService limits).attempt
      pure (.opened result)
  | .importArtifact limits names request => do
      let result ← (OfflineArtifactImport.importArtifact limits names request).attempt
      pure (.imported result)
  | .remove limits request => do
      let result ← (ArtifactRemoval.remove limits request).attempt
      pure (.removed result)
  | .reconcile limits request => do
      let result ← (ArtifactReconciliation.reconcile limits request).attempt
      pure (.reconciled result)

/-- One change of the managed state and the call that made it. -/
structure ServiceStep where
  call : ServiceCall
  (before after : ManagedState)

structure ServiceHistory where
  steps : List ServiceStep
  final : ManagedState

/-- Performs the calls one after another; a call that was stopped leaves what it had done. -/
def performAll (state : ManagedState) : List (ServiceCall × Script) → ServiceHistory
  | [] => ⟨[], state⟩
  | (call, script) :: calls =>
      let run := call.perform script state
      let later := performAll run.final calls
      ⟨run.changes.map (fun change => ⟨call, change.1, change.2⟩) ++ later.steps, later.final⟩

/-- Every state the calls pass through, the last first. -/
def ServiceHistory.states (history : ServiceHistory) : List ManagedState := history.final :: history.steps.map ServiceStep.after

end Retonr
