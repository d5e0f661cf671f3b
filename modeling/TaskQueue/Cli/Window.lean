import TaskQueue.Cli.Report

/-!
# Schedule windows on the command line

A window is written as two hours with a hyphen between them.  It goes into the payload of the new
task, which then has to be an object.
-/

namespace TaskQueue.Cli

def splitAtHyphen (cs : List Char) : Option (List Char × List Char) :=
  let first := cs.takeWhile (· ≠ '-')
  match cs.drop first.length with
  | _ :: rest => some (first, rest)
  | [] => none

def readHour (cs : List Char) : Except Failure Nat :=
  match Decimal.unsigned? (2 ^ (32 : Nat)) (Text.trimChars cs) with
  | none => .error (.hourUnreadable (String.ofList cs))
  | some hour => if hour < hoursPerDay then .ok hour else .error (.hourOutOfRange hour)

def readWindow (window : String) : Except Failure (Nat × Nat) :=
  match splitAtHyphen window.toList with
  | none => .error (.windowShape window)
  | some (start, stop) => do
    let start ← readHour start
    let stop ← readHour stop
    return (start, stop)

/-- Reads the name of a source, in any case and with blanks around it. -/
def readSource (s : String) : ScheduleSource :=
  .ofName (String.ofList ((Text.trimChars s.toList).map Char.toLower))

/-- The schedule of a window and perhaps a source. -/
def scheduleOf (window : String) (source : Option String) : Except Failure Schedule := do
  let (start, stop) ← readWindow window
  let s := Schedule.window start stop
  return (match source with
    | none => s
    | some source => s.withSource (readSource source))

/-- The payload of a new task, with its schedule if there is a window. -/
def buildPayload (raw : String) (window source : Option String) : Except Failure Json :=
  match Json.parse? raw with
  | none => .error .payloadNotJson
  | some payload =>
    match window with
    | none => .ok payload
    | some window => do
      let s ← scheduleOf window source
      match payload with
      | .object fields => return .object (Json.Fields.insert Schedule.key s.encode.normal fields)
      | _ => throw .payloadNotObject

end TaskQueue.Cli
