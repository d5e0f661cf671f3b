import TaskQueue.Cli.Listing
import TaskQueue.Cli.Logs
import TaskQueue.Cli.Window
import TaskQueue.Json.Printer

/-!
# The commands of an operator

Each command makes one request to the store and reports on the answer.
-/

namespace TaskQueue.Cli

open Store (Backend Moment)

inductive Command where
  | enqueue (eventType payload : String) (group window source : Option String)
  | show (id : String)
  | list (status : Option String) (archived all : Bool) (limit : Nat)
  | pause (id : String)
  | retry (id : String)
  | archive (id : String) (archived : Bool)
  | delete (id : String)
  /-- Prints the log from the line after `since` on. -/
  | logs (id : String) (since : Nat)
  deriving DecidableEq, Repr

def readId (raw : String) : Except Failure TaskId :=
  match TaskId.ofChars? (Text.trimChars raw.toList) with
  | none => .error (.invalidId raw)
  | some id => .ok id

/-- The filter of a list: tasks that are not archived, unless others are asked for. -/
def listFilter (status : Option String) (archived all : Bool) : Except Failure TaskFilter :=
  let archived := if all then none else some archived
  match status with
  | none => .ok ⟨none, archived⟩
  | some name =>
    match Status.ofName? name with
    | none => .error (.invalidStatus name)
    | some s => .ok ⟨some s, archived⟩

/-- Goes on with a value, or reports why there is none. -/
def orFail (b : Backend) (e : Except Failure α) (f : α → Report × Backend) : Report × Backend :=
  match e with
  | .error failure => (.fail failure, b)
  | .ok a => f a

/-- The report on a look at a log that is not followed. -/
def Look.report : Look → Report
  | .more lines _ => .done lines
  | .ended r => r

namespace Command

def perform (c : Command) (b : Backend) (moment : Moment) : Report × Backend :=
  match c with
  | .enqueue eventType raw group window source =>
    orFail b (buildPayload raw window source) fun payload =>
      Report.ofRequest b moment .enqueueTask (.enqueue { group, eventType, payload }) fun t =>
        .done [t.id.text]
  | .show raw =>
    orFail b (readId raw) fun id =>
      Report.ofRequest b moment .loadTask (.get id) fun
        | none => .fail (.missing id)
        | some t => .done [t.encode.pretty]
  | .list status archived all limit =>
    orFail b (listFilter status archived all) fun filter =>
      Report.ofRequest b moment .listTasks (.list filter limit) fun tasks => .done (listLines tasks)
  | .pause raw =>
    orFail b (readId raw) fun id =>
      Report.ofRequest b moment .pauseTask (.pause id) fun
        | true => .done [s!"Task {id.text} paused"]
        | false =>
          .done [s!"Task {id.text} is missing or not queued/processing; nothing to pause"]
  | .retry raw =>
    orFail b (readId raw) fun id =>
      Report.ofRequest b moment .requeueTask (.retry id) fun
        | true => .done [s!"Task {id.text} re-queued"]
        | false => .done [s!"Task {id.text} is missing or not failed/paused; nothing to retry"]
  | .archive raw archived =>
    orFail b (readId raw) fun id =>
      Report.ofRequest b moment .updateArchived (.archive id archived) fun
        | true => .done [s!"Task {id.text} " ++ if archived then "archived" else "unarchived"]
        | false => .done [s!"Task {id.text} not found"]
  | .delete raw =>
    orFail b (readId raw) fun id =>
      Report.ofRequest b moment .deleteTask (.delete id) fun
        | true => .done [s!"Task {id.text} deleted"]
        | false => .done [s!"Task {id.text} not found"]
  | .logs raw since =>
    orFail b (readId raw) fun id =>
      let (look, b) := firstLook b moment id since
      (look.report, b)

end Command

end TaskQueue.Cli
