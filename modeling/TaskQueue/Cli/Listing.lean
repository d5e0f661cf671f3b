import TaskQueue.Task.Encoding
import TaskQueue.Text.Aligned

/-!
# Lists of tasks

A list shows a task a line, in columns: identifier, status, whether it is archived, retries, the
time of creation and the type of event.
-/

namespace TaskQueue.Cli

open Text (aligned)

/-- The columns of a line; all but the last have a width. -/
def columns (id status archived retries created event : String) : String :=
  aligned .left 36 id ++ "  " ++ aligned .left 10 status ++ "  " ++ aligned .left 5 archived ++
    "  " ++ aligned .right 3 retries ++ "  " ++ aligned .left 19 created ++ "  " ++ event

def listLine (t : Task) : String :=
  columns t.id.text t.status.name (if t.archived then "yes" else "no")
    (String.ofList (Decimal.signedText t.retries)) t.createdAt.plain t.eventType

def listLines (tasks : List Task) : List String :=
  if tasks.isEmpty then ["No tasks found"]
  else columns "ID" "STATUS" "ARCH" "TRY" "CREATED" "EVENT" :: tasks.map listLine

end TaskQueue.Cli
