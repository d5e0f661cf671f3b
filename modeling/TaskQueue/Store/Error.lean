import TaskQueue.Task.Id

/-!
# Errors of a store
-/

namespace TaskQueue

/-- A column of a stored task that holds text to be decoded. -/
inductive Column where
  | id
  | payload
  | result
  | createdAt
  | updatedAt
  deriving DecidableEq, Repr, Inhabited

def Column.name : Column → String
  | .id => "id"
  | .payload => "payload"
  | .result => "result"
  | .createdAt => "created_at"
  | .updatedAt => "updated_at"

inductive StoreError where
  | taskNotFound (id : TaskId)
  | connection (detail : String)
  | database
  | corrupt (id : String) (column : Column)
  | invalidStatus (status : String)
  | lockPoisoned
  deriving DecidableEq, Repr, Inhabited

namespace StoreError

/-- The text of an error; what the database has to say is left out. -/
def message : StoreError → String
  | .taskNotFound id => s!"Task not found: {id.text}"
  | .connection detail => s!"Connection pool error: {detail}"
  | .database => "Database error"
  | .corrupt id column => s!"Corrupt task record {id}: {column.name}"
  | .invalidStatus status => s!"Invalid task status: '{status}'"
  | .lockPoisoned => "Store lock poisoned"

end StoreError

/-- Why an operation has no result: the store refuses it, or it did not end properly. -/
inductive Fault where
  | error (e : StoreError)
  | crash (detail : String)
  deriving DecidableEq, Repr, Inhabited

end TaskQueue
