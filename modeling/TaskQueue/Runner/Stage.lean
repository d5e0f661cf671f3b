import TaskQueue.Execution.Persist
import TaskQueue.Runner.Config
import TaskQueue.Runner.Disposition

/-!
# Processing one task

A run goes through stages.  At each stage it calls on its surroundings (a hook, the store, an
executor, a wait), and the reply decides about the next stage.  `Stage.call` is the call of a stage
and `Stage.next` takes in the reply.
-/

namespace TaskQueue.Runner

open Execution (Attempts Verdict Watch)
open Time (Duration)

structure Finish where
  task : TaskId
  status : FinishStatus
  message : Option String
  providerRef : Option String
  elapsedMs : Nat
  deriving DecidableEq, Repr

inductive HookReply where
  | fine
  | failed (detail : String)
  | crashed
  deriving DecidableEq, Repr, Inhabited

def HookReply.notices (id : TaskId) (point : HookPoint) : HookReply → List Notice
  | .fine => []
  | .failed detail => [.hookFailed id point detail]
  | .crashed => [.hookCrashed id point]

/-- The end of an execution, and the watch that was kept over it. -/
structure Executed where
  verdict : Verdict
  watch : Watch
  deriving DecidableEq, Repr

inductive Call where
  | onStart (t : Task)
  | reset (id : TaskId)
  | execute (t : Task)
  | finalize (id : TaskId) (p : ResultPatch) (status : Status)
  | wait (d : Duration)
  | onFinish (f : Finish)
  deriving DecidableEq, Repr

def Call.Reply : Call → Type
  | .onStart _ => HookReply
  | .reset _ => Except Fault Unit
  | .execute _ => Executed
  | .finalize _ _ _ => Except Fault Unit
  | .wait _ => Unit
  | .onFinish _ => HookReply

structure Closing where
  task : TaskId
  disposition : Disposition
  patch : ResultPatch
  status : Status
  attempts : Attempts
  deriving DecidableEq, Repr

inductive Stage where
  | starting (t : Task)
  | resetting (t : Task)
  | executing (t : Task)
  | writing (c : Closing)
  | waiting (d : Duration) (c : Closing)
  | finishing (f : Finish)
  deriving DecidableEq, Repr

/-- When a run began and what time it is, in nanoseconds. -/
structure Timing where
  began : Nat
  now : Nat
  deriving DecidableEq, Repr

def Timing.elapsedMs (t : Timing) : Nat :=
  (t.now - t.began) / 10 ^ (6 : Nat)

namespace Stage

def call : Stage → Call
  | .starting t => .onStart t
  | .resetting t => .reset t.id
  | .executing t => .execute t
  | .writing c => .finalize c.task c.patch c.status
  | .waiting d _ => .wait d
  | .finishing f => .onFinish f

/-- The last stage, in which the end of the run is reported. -/
def closed (timing : Timing) (task : TaskId) (d : Disposition) (finish : FinishStatus) : Stage :=
  .finishing ⟨task, finish, d.message, d.providerRef, timing.elapsedMs⟩

def settled (config : Config) (timing : Timing) (t : Task) (e : Executed) : Stage :=
  let d := resolve e.watch e.verdict
  match d.write with
  | none => closed timing t.id d d.finish
  | some (status, p) => .writing ⟨t.id, d, trimLogs p config.logWindow, status, .none⟩

def attempted (timing : Timing) (c : Closing) : Execution.Persisting → Stage
  | .again delay attempts => .waiting delay { c with attempts := attempts }
  | .ended (.gone _) => closed timing c.task c.disposition .deleted
  | .ended _ => closed timing c.task c.disposition c.disposition.finish

/-- Takes in the reply to the call of a stage: the next stage, none at the end of the run, and what
is reported.  A run that crashes ends at once. -/
def next (config : Config) (timing : Timing) :
    (s : Stage) → s.call.Reply → Option Stage × List Notice
  | .starting t, (reply : HookReply) => (some (.resetting t), reply.notices t.id .start)
  | .resetting t, (reply : Except Fault Unit) =>
    match reply with
    | .ok () => (some (.executing t), [])
    | .error (.error e) => (some (.executing t), [.resetFailed t.id e])
    | .error (.crash detail) => (none, [.processingCrashed t.id detail])
  | .executing t, (e : Executed) => (some (settled config timing t e), e.watch.stopNotices)
  | .writing c, (reply : Except Fault Unit) =>
    match reply with
    | .error (.crash detail) => (none, [.processingCrashed c.task detail])
    | .ok () =>
      let (p, notices) := c.attempts.after config.retry timing.now c.task c.status (.ok ())
      (some (attempted timing c p), notices)
    | .error (.error e) =>
      let (p, notices) := c.attempts.after config.retry timing.now c.task c.status (.error e)
      (some (attempted timing c p), notices)
  | .waiting _ c, _ => (some (.writing c), [])
  | .finishing f, (reply : HookReply) => (none, reply.notices f.task .finish)

end Stage

end TaskQueue.Runner
