import TaskQueue.Runner.Drain
import TaskQueue.Simulation.Follow

/-!
# Scenarios

A scenario says what happens around a runner: what operators do, how executions behave, which calls
to the store fail, and what hooks do.  Times are in milliseconds of a virtual clock.
-/

namespace TaskQueue.Simulation

open Execution (AbortReason Persisted Verdict)
open Runner (Finish HookReply Stats Triggered)
open Time (Duration ZonedTime)

inductive CallName where
  | claim
  | control
  | patch
  | finalize
  deriving DecidableEq, Repr

def CallName.name : CallName → String
  | .claim => "claim"
  | .control => "control"
  | .patch => "patch"
  | .finalize => "finalize"

/-- How a call goes wrong. -/
inductive Trouble where
  | refused
  | gone
  | crash
  deriving DecidableEq, Repr

/-- The fault that a call about a task gets instead of an answer. -/
def Trouble.fault (id : TaskId) : Trouble → Fault
  | .refused => .error (.connection "injected failure")
  | .gone => .error (.taskNotFound id)
  | .crash => .crash "injected panic"

/-- For each kind of call what goes wrong, call by call. -/
structure Troubles where
  claim : List (Option Trouble)
  control : List (Option Trouble)
  patch : List (Option Trouble)
  finalize : List (Option Trouble)

namespace Troubles

private def first : List (Option Trouble) → Option Trouble × List (Option Trouble)
  | [] => (none, [])
  | t :: rest => (t, rest)

/-- What goes wrong with the next call of a kind. -/
def next (t : Troubles) : CallName → Option Trouble × Troubles
  | .claim => let (x, rest) := first t.claim; (x, { t with claim := rest })
  | .control => let (x, rest) := first t.control; (x, { t with control := rest })
  | .patch => let (x, rest) := first t.patch; (x, { t with patch := rest })
  | .finalize => let (x, rest) := first t.finalize; (x, { t with finalize := rest })

end Troubles

/-- What an execution does, one thing after the other. -/
inductive Deed where
  | sleep (ms : Nat)
  | awaitCancel
  | trigger
  | operate (label : String) (op : Operation)
  | finish (v : Verdict)
  | crash (detail : String)

structure HookScript where
  start : HookReply
  finish : HookReply

/-- What an operator does, one thing after the other. -/
inductive Act where
  | operate (op : Operation)
  | follow (id : String) (since : Nat) (changes : List Change)
  | trigger
  | spawn (name : String)
  | join (name : String)
  | abort (name : String)
  | periodic (intervalMs stopAfterMs : Nat)
  | sleep (ms : Nat)
  | setNow (time : ZonedTime)
  | stats
  | persist (id : TaskId) (p : ResultPatch) (status : Status)
  | watch (name : String) (id : TaskId) (intervalMs : Nat)
  | watchState (name : String)
  | watchRecord (name : String) (reason : AbortReason)
  | watchStop (name : String)
  | watchDrop (name : String)

inductive Joined where
  | finished (t : Triggered)
  | crashed
  | aborted
  deriving DecidableEq, Repr

inductive Seen where
  | operated (o : Outcome)
  | followed (r : Cli.Report)
  | triggered (t : Triggered)
  | running (b : Bool)
  | joined (j : Joined)
  | stoppedAt (ms : Nat)
  | time (ms : Nat)
  | nothing
  | stats (s : Stats) (running : Bool)
  | persisted (p : Persisted) (ms : Nat)
  | watch (reason : Option AbortReason) (cancelled : Bool)
  | cancelled (b : Bool)
  | unknownName

inductive Entry where
  | call (name : CallName) (id : TaskId) (error : Option StoreError)
  | started (id : TaskId) (seq : Nat)
  | finished (f : Finish)
  | execute (id : TaskId) (status : Status) (retries : Int)
  | cancelled (id : TaskId)
  | triggered (t : Triggered) (running : Bool)
  | did (label : String) (o : Outcome)
  | watchCancelled (name : String)

structure Scenario where
  site : Site
  config : Runner.Config
  claimTime : ZonedTime
  /-- The hooks, if there are any, with the tasks for which they do not simply succeed. -/
  hooks : Option (List (TaskId × HookScript))
  /-- For each task what its executions do, execution by execution. -/
  scripts : List (TaskId × List (List Deed))
  troubles : Troubles
  acts : List Act

end TaskQueue.Simulation
