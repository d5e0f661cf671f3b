import TaskQueue.Execution.Outcome
import TaskQueue.Execution.Watch

/-!
# What becomes of a run

When an execution has ended, the reason to stop it decides first: the result of a deleted task is
not written, and a paused task is paused whatever the execution says.  Without a reason the
execution's own verdict counts.
-/

namespace TaskQueue.Runner

open Execution (AbortReason Failure Output Verdict Watch)

inductive FinishStatus where
  | succeeded
  | failed
  | paused
  | deleted
  deriving DecidableEq, Repr, Inhabited

def FinishStatus.name : FinishStatus → String
  | .succeeded => "succeeded"
  | .failed => "failed"
  | .paused => "paused"
  | .deleted => "deleted"

def pausedMessage : String := "Task paused before completion"

structure Disposition where
  finish : FinishStatus
  write : Option (Status × ResultPatch)
  message : Option String
  providerRef : Option String
  deriving DecidableEq, Repr

/-- The reason to stop that holds at the end: the recorded one, else a pause if the execution says
that it was aborted. -/
def reasonAtEnd (w : Watch) (v : Verdict) : Option AbortReason :=
  match w.reason, v with
  | some r, _ => some r
  | none, .failure f => if f.aborted then some (w.record .paused).1 else none
  | none, .success _ => none

def pausedPatch : Verdict → ResultPatch
  | .success o => { o.patch with message := .set pausedMessage }
  | .failure f => f.patch pausedMessage

def resolve (w : Watch) (v : Verdict) : Disposition :=
  match reasonAtEnd w v, v with
  | some .deleted, v => ⟨.deleted, none, none, v.providerRef⟩
  | some .paused, v =>
    ⟨.paused, some (.paused, pausedPatch v), some pausedMessage, v.providerRef⟩
  | none, .success o => ⟨.succeeded, some (.succeeded, o.patch), none, o.providerRef⟩
  | none, .failure f =>
    ⟨.failed, some (.failed, f.patch f.message), some f.message, f.providerRef⟩

/-- Keeps the newest log lines of a patch; the lines that stay are counted. -/
def trimLogs (p : ResultPatch) (window : Nat) : ResultPatch :=
  match p.logs with
  | none => p
  | some logs =>
    let kept := Log.newest window logs
    { p with
      logs := some kept
      seq := some ((p.seq.map (max · kept.length)).getD kept.length) }

end TaskQueue.Runner
