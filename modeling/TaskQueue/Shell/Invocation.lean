import TaskQueue.Json.Value
import TaskQueue.Text.Blank

/-!
# The command of a task

A task names its command in the payload: a script for the shell, or a program with its arguments.
-/

namespace TaskQueue.Shell

structure Invocation where
  program : String
  arguments : List String
  deriving DecidableEq, Repr, Inhabited

inductive CommandFlaw where
  | missing
  | malformed
  | notText
  deriving DecidableEq, Repr, Inhabited

def CommandFlaw.message : CommandFlaw → String
  | .missing => "Task payload has no command"
  | .malformed => "Command must be a non-empty string or array"
  | .notText => "Command array must contain only strings"

/-- The texts of values, if all are texts. -/
def textsOf? : List Json → Option (List String)
  | [] => some []
  | .text s :: rest => (textsOf? rest).map (s :: ·)
  | _ :: _ => none

namespace Invocation

def ofScript (script : String) : Invocation :=
  ⟨"sh", ["-c", script]⟩

def ofPayload (payload : Json) : Except CommandFlaw Invocation :=
  match payload.get? "command" with
  | none => .error .missing
  | some (.text script) =>
    if Text.trimChars script.toList = [] then .error .malformed else .ok (ofScript script)
  | some (.array (item :: items)) =>
    match textsOf? (item :: items) with
    | some (program :: arguments) => .ok ⟨program, arguments⟩
    | _ => .error .notText
  | some _ => .error .malformed

def texts (i : Invocation) : List String :=
  i.program :: i.arguments

end Invocation

end TaskQueue.Shell
