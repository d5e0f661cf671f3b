import TaskQueue.Store.Memory
import TaskQueue.Store.Table

/-!
# Requests

A request names an operation on a store with its arguments; `Request.Answer` is the type of what
comes back.  Both kinds of store perform every request, and `Backend` is a store of either kind, or
a table in which nothing may be written.
-/

namespace TaskQueue.Store

open Log (Snapshot)
open Time (ZonedTime)

inductive Request where
  | enqueue (new : NewTask)
  | insert (task : Task)
  | get (id : TaskId)
  | list (filter : TaskFilter) (limit : Nat)
  | claim (limit : Nat) (time : ZonedTime)
  | control (id : TaskId)
  | patch (id : TaskId) (p : ResultPatch)
  | finalize (id : TaskId) (p : ResultPatch) (status : Status)
  | append (id : TaskId) (lines : List String) (window : Nat)
  | snapshot (id : TaskId)
  | pause (id : TaskId)
  | retry (id : TaskId)
  | archive (id : TaskId) (archived : Bool)
  | delete (id : TaskId)
  deriving DecidableEq, Repr

def Request.Answer : Request → Type
  | .enqueue _ => Task
  | .insert _ => Unit
  | .get _ => Option Task
  | .list _ _ => List Task
  | .claim _ _ => Option Task
  | .control _ => Option ControlState
  | .patch _ _ => Unit
  | .finalize _ _ _ => Unit
  | .append _ _ _ => Snapshot
  | .snapshot _ => Option Snapshot
  | .pause _ => Bool
  | .retry _ => Bool
  | .archive _ _ => Bool
  | .delete _ => Bool

def Memory.perform (m : Memory) (moment : Moment) : (r : Request) → Step Memory r.Answer
  | .enqueue new => m.enqueue moment new
  | .insert task => m.insert task
  | .get id => m.get id
  | .list filter limit => m.list filter limit
  | .claim limit time => m.claim moment limit time
  | .control id => m.control id
  | .patch id p => m.patch moment id p
  | .finalize id p status => m.finalize moment id p status
  | .append id lines window => m.append moment id lines window
  | .snapshot id => m.snapshot id
  | .pause id => m.pause moment id
  | .retry id => m.retry moment id
  | .archive id archived => m.archive moment id archived
  | .delete id => m.delete id

def Table.perform (t : Table) (moment : Moment) : (r : Request) → Step Table r.Answer
  | .enqueue new => t.enqueue moment new
  | .insert task => t.insert task
  | .get id => t.get id
  | .list filter limit => t.list filter limit
  | .claim limit time => t.claim moment limit time
  | .control id => t.control id
  | .patch id p => t.patch moment id p
  | .finalize id p status => t.finalize moment id p status
  | .append id lines window => t.append moment id lines window
  | .snapshot id => t.snapshot id
  | .pause id => t.pause moment id
  | .retry id => t.retry moment id
  | .archive id archived => t.archive moment id archived
  | .delete id => t.delete id

/-- Whether a request writes even if it finds nothing to change. -/
def Request.alwaysWrites : Request → Bool
  | .enqueue _ | .insert _ | .pause _ | .archive _ _ | .delete _ => true
  | _ => false

/-- Performs a request on a table in which nothing may be written: what would change it is refused,
and the table stays as it is. -/
def Table.performReadOnly (t : Table) (moment : Moment) (r : Request) : Step Table r.Answer :=
  let s := t.perform moment r
  if r.alwaysWrites ∨ (s.store ≠ t ∧ s.store.rows.isSome) then
    ⟨.error (.error .database), t, s.notices⟩
  else s

inductive Backend where
  | memory (m : Memory)
  | table (t : Table)
  /-- A table in which nothing may be written. -/
  | readOnly (t : Table)
  deriving DecidableEq, Repr, Inhabited

def Backend.perform (b : Backend) (moment : Moment) (r : Request) : Step Backend r.Answer :=
  match b with
  | .memory m => (m.perform moment r).mapStore .memory
  | .table t => (t.perform moment r).mapStore .table
  | .readOnly t => (t.performReadOnly moment r).mapStore .readOnly

end TaskQueue.Store
