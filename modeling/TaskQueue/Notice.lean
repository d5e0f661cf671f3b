import TaskQueue.Schedule
import TaskQueue.Store.Error
import TaskQueue.Task.Status
import TaskQueue.Time.Duration

/-!
# Notices

What the queue reports about itself while it works: warnings and errors that do not stop it.
-/

namespace TaskQueue

inductive Level where
  | warn
  | error
  deriving DecidableEq, Repr, Inhabited

def Level.name : Level → String
  | .warn => "WARN"
  | .error => "ERROR"

/-- One of the two points at which a run can be observed. -/
inductive HookPoint where
  | start
  | finish
  deriving DecidableEq, Repr, Inhabited

def HookPoint.name : HookPoint → String
  | .start => "on_start"
  | .finish => "on_finish"

inductive Notice where
  | scheduleOutOfRange (startHour endHour : Nat)
  | scheduleMalformed
  | unreadablePayload (id : String)
  | claimFailed (e : StoreError)
  | processingCrashed (id : TaskId) (detail : String)
  | hookFailed (id : TaskId) (point : HookPoint) (detail : String)
  | hookCrashed (id : TaskId) (point : HookPoint)
  | resetFailed (id : TaskId) (e : StoreError)
  | pollFailed (id : TaskId) (e : StoreError)
  | persistFailed (id : TaskId) (status : Status) (attempt retryInMs suppressed : Nat)
      (e : StoreError)
  | persistRefused (id : TaskId) (status : String)
  | watcherCrashed (id : TaskId)
  deriving DecidableEq, Repr, Inhabited

namespace Notice

def level : Notice → Level
  | .claimFailed _ => .error
  | .processingCrashed _ _ => .error
  | .persistRefused _ _ => .error
  | _ => .warn

def message : Notice → String
  | .scheduleOutOfRange _ _ => "Ignoring schedule descriptor with out-of-range hours"
  | .scheduleMalformed => "Ignoring malformed schedule descriptor"
  | .unreadablePayload _ => "Skipping task with unreadable payload"
  | .claimFailed _ => "Failed to claim next task, ending drain pass"
  | .processingCrashed _ _ => "Task processing panicked"
  | .hookFailed _ _ _ => "Task hook failed"
  | .hookCrashed _ _ => "Task hook panicked"
  | .resetFailed _ _ => "Failed to reset result before execution"
  | .pollFailed _ _ => "Failed to poll task control state"
  | .persistFailed .. => "Failed to persist task result, retrying"
  | .persistRefused _ _ => "Refusing to finalize with non-terminal status"
  | .watcherCrashed _ => "Control watcher ended abnormally"

/-- The particulars of a notice, each with its name. -/
def fields : Notice → Json.Fields
  | .scheduleOutOfRange startHour endHour =>
    [("start_hour", .nat startHour), ("end_hour", .nat endHour)]
  | .scheduleMalformed => []
  | .unreadablePayload id => [("task_id", .text id)]
  | .claimFailed e => [("error", .text e.message)]
  | .processingCrashed id detail => [("task_id", .text id.text), ("panic", .text detail)]
  | .hookFailed id point detail =>
    [("task_id", .text id.text), ("hook", .text point.name), ("error", .text detail)]
  | .hookCrashed id point => [("task_id", .text id.text), ("hook", .text point.name)]
  | .resetFailed id e => [("task_id", .text id.text), ("error", .text e.message)]
  | .pollFailed id e => [("task_id", .text id.text), ("error", .text e.message)]
  | .persistFailed id status attempt retryInMs suppressed e =>
    [("task_id", .text id.text), ("status", .text status.name), ("attempt", .nat attempt),
     ("retry_in_ms", .nat retryInMs), ("suppressed", .nat suppressed), ("error", .text e.message)]
  | .persistRefused id status => [("task_id", .text id.text), ("status", .text status)]
  | .watcherCrashed id => [("task_id", .text id.text)]

end Notice

def Schedule.notices (payload : Json) : List Notice :=
  match read payload with
  | .outOfRange startHour endHour => [.scheduleOutOfRange startHour endHour]
  | .malformed => [.scheduleMalformed]
  | _ => []

end TaskQueue
