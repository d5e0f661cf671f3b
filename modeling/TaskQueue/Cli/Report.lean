import TaskQueue.Config.Loader
import TaskQueue.Store.Request

/-!
# What a command reports

A command prints lines and then is done, fails or crashes.  A failure names what was attempted; its
cause in the store, if there is one, is kept beside it.
-/

namespace TaskQueue.Cli

open Store (Backend Moment Request)

inductive Activity where
  | enqueueTask
  | loadTask
  | listTasks
  | pauseTask
  | requeueTask
  | updateArchived
  | deleteTask
  | readLogs
  | readState
  deriving DecidableEq, Repr, Inhabited

/-- What is said when an activity fails. -/
def Activity.failure : Activity → String
  | .enqueueTask => "Failed to enqueue task"
  | .loadTask => "Failed to load task"
  | .listTasks => "Failed to list tasks"
  | .pauseTask => "Failed to pause task"
  | .requeueTask => "Failed to re-queue task"
  | .updateArchived => "Failed to update archived flag"
  | .deleteTask => "Failed to delete task"
  | .readLogs => "Failed to read task logs"
  | .readState => "Failed to read task state"

inductive Failure where
  | invalidId (raw : String)
  | missing (id : TaskId)
  | invalidStatus (name : String)
  | refused (activity : Activity) (e : StoreError)
  | payloadNotJson
  | windowShape (window : String)
  | hourUnreadable (raw : String)
  | hourOutOfRange (hour : Nat)
  | payloadNotObject
  | configuration (e : Config.ConfigError)
  | invalidConfiguration (flaw : Runner.Flaw)
  | invalidRunner (flaw : Runner.Flaw)
  | cannotOpen (url : String)
  deriving DecidableEq, Repr

namespace Failure

def message : Failure → String
  | .invalidId raw => s!"Invalid task id: '{raw}'"
  | .missing id => s!"Task {id.text} not found"
  | .invalidStatus _ => "Invalid --status"
  | .refused activity _ => activity.failure
  | .payloadNotJson => "Payload is not valid JSON"
  | .windowShape window => s!"Window '{window}' must look like START-END, e.g. 22-2"
  | .hourUnreadable raw => s!"Invalid hour in window: '{raw}'"
  | .hourOutOfRange hour => s!"Hour {hour} is out of range (0-23)"
  | .payloadNotObject => "A schedule window requires a JSON object payload"
  | .configuration _ => "Failed to load configuration"
  | .invalidConfiguration _ => "Invalid configuration"
  | .invalidRunner _ => "Invalid runner configuration"
  | .cannotOpen url => s!"Failed to open task store at {url}"

def cause? : Failure → Option StoreError
  | .invalidStatus name => some (.invalidStatus name)
  | .refused _ e => some e
  | _ => none

/-- The text of what is behind a failure, or of the failure itself. -/
def innermost (f : Failure) : String :=
  match f with
  | .configuration e => e.message
  | .invalidConfiguration flaw => flaw.message
  | .invalidRunner flaw => flaw.message
  | f => ((f.cause?).map StoreError.message).getD f.message

end Failure

inductive Ending where
  | done
  | failed (f : Failure)
  | crashed
  deriving DecidableEq, Repr

structure Report where
  lines : List String
  ending : Ending
  deriving DecidableEq, Repr

namespace Report

def done (lines : List String) : Report :=
  ⟨lines, .done⟩

def fail (f : Failure) : Report :=
  ⟨[], .failed f⟩

/-- The printed text: every line with its end. -/
def text (r : Report) : String :=
  String.join (r.lines.map (· ++ "\n"))

def after (lines : List String) (r : Report) : Report :=
  { r with lines := lines ++ r.lines }

def ofRequest (b : Backend) (moment : Moment) (activity : Activity) (r : Request)
    (f : r.Answer → Report) : Report × Backend :=
  let s := b.perform moment r
  match s.result with
  | .ok a => (f a, s.store)
  | .error (.error e) => (fail (.refused activity e), s.store)
  | .error (.crash _) => (⟨[], .crashed⟩, s.store)

end Report

end TaskQueue.Cli
