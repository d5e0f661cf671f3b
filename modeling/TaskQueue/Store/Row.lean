import TaskQueue.Store.Error
import TaskQueue.Task.Encoding

/-!
# Tasks as rows of text

A row holds a task in columns: identifier, status, payload, result and times as text.  `Row.ofTask`
writes a task; `Row.task` reads one, column by column, and names the first one that is corrupt.
-/

namespace TaskQueue.Store

open Time (Instant)

structure Row where
  id : String
  group : Option String
  eventType : String
  status : String
  archived : Bool
  payload : String
  retries : Int
  result : String
  createdAt : String
  updatedAt : String
  deriving DecidableEq, Repr, Inhabited

namespace Row

def ofTask (t : Task) : Row where
  id := t.id.text
  group := t.group
  eventType := t.eventType
  status := t.status.name
  archived := t.archived
  payload := t.payload.compact
  retries := t.retries
  result := t.result.encode.compact
  createdAt := t.createdAt.stamp
  updatedAt := t.updatedAt.stamp

def decode (r : Row) (column : Column) (value : Option α) : Except StoreError α :=
  match value with
  | none => .error (.corrupt r.id column)
  | some a => .ok a

def statusOf (name : String) : Except StoreError Status :=
  match Status.ofName? name with
  | none => .error (.invalidStatus name)
  | some s => .ok s

def resultOf? (text : String) : Option TaskResult :=
  TaskResult.decoder.ofText? text

def instantOf? (text : String) : Option Instant :=
  (Time.strict? text).map (·.instant)

/-- The task of a row.  The count of retries has 32 bits. -/
def task (r : Row) : Except StoreError Task := do
  let id ← r.decode .id (TaskId.ofText? r.id)
  let status ← statusOf r.status
  let payload ← r.decode .payload (Json.parse? r.payload)
  let result ← r.decode .result (resultOf? r.result)
  let createdAt ← r.decode .createdAt (instantOf? r.createdAt)
  let updatedAt ← r.decode .updatedAt (instantOf? r.updatedAt)
  return {
    id, status, payload, result, createdAt, updatedAt
    group := r.group
    eventType := r.eventType
    archived := r.archived
    retries := r.retries.bmod (2 ^ (32 : Nat)) }

/-- Whether `a` is older than `b`, going by the texts of time and identifier. -/
def before (a b : Row) : Bool :=
  a.createdAt < b.createdAt ∨ (a.createdAt = b.createdAt ∧ a.id < b.id)

def isAdmitted (r : Row) (filter : TaskFilter) : Bool :=
  filter.status.all (fun s => r.status = s.name) ∧ filter.archived.all (· = r.archived)

end Row

end TaskQueue.Store
