import TaskQueue.Notice
import TaskQueue.Task.Basic

/-!
# Watching for requests to stop

While a task runs, a watch looks at its control state again and again.  A task that is gone or
paused is told to stop; the first reason found stays, and after it the watch looks no more.  The
runner may also record a reason.
-/

namespace TaskQueue.Execution

inductive AbortReason where
  | paused
  | deleted
  deriving DecidableEq, Repr, Inhabited

def AbortReason.name : AbortReason → String
  | .paused => "paused"
  | .deleted => "deleted"

inductive Vigil where
  | watching
  | ended
  | crashed
  deriving DecidableEq, Repr, Inhabited

structure Watch where
  task : TaskId
  reason : Option AbortReason
  cancelled : Bool
  vigil : Vigil
  deriving DecidableEq, Repr, Inhabited

def detected : Option ControlState → Option AbortReason
  | none => some .deleted
  | some state => if state.status = .paused then some .paused else none

namespace Watch

def start (task : TaskId) : Watch :=
  ⟨task, none, false, .watching⟩

/-- Records a reason unless there is one, and tells which one holds. -/
def record (w : Watch) (r : AbortReason) : AbortReason × Watch :=
  match w.reason with
  | some first => (first, w)
  | none => (r, { w with reason := some r })

def poll (w : Watch) (answer : Except Fault (Option ControlState)) : Watch × List Notice :=
  match answer with
  | .error (.crash _) => ({ w with vigil := .crashed }, [])
  | .error (.error e) => (w, [.pollFailed w.task e])
  | .ok state =>
    match detected state with
    | none => (w, [])
    | some r => ({ (w.record r).2 with cancelled := true, vigil := .ended }, [])

/-- What is reported when the watch is stopped. -/
def stopNotices (w : Watch) : List Notice :=
  match w.vigil with
  | .crashed => [.watcherCrashed w.task]
  | _ => []

end Watch

end TaskQueue.Execution
