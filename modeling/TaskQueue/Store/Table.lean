import TaskQueue.Store.Row
import TaskQueue.Store.Step

/-!
# The store in a table

Tasks are kept as rows of text in a table whose identifiers are distinct and whose statuses are
known.  Rows need not come from this program, so a column may turn out to be corrupt; the table
keeps such a row as it is.

The database is one in memory, which lives as long as its connection: when an operation crashes, the
connection is given up and the next operation finds a database without the table.  The rows of a
database in a file would outlive its connection.  Only a log counter at the end of its range makes
an operation crash; short of that a table in a file and one in memory behave alike.
-/

namespace TaskQueue.Store

open Log (Snapshot)
open Time (Instant ZonedTime)

structure Table where
  /-- The rows; none if the table does not exist. -/
  rows : Option (List Row)
  deriving DecidableEq, Repr, Inhabited

namespace Table

/-- The table without rows. -/
def empty : Table :=
  ⟨some []⟩

/-- Creates the table if it does not exist. -/
def migrate (t : Table) : Step Table Unit :=
  .done ⟨some (t.rows.getD [])⟩ ()

def withRows (t : Table) (f : List Row → Step Table α) : Step Table α :=
  match t.rows with
  | none => .fail t .database
  | some rows => f rows

/-- The connection is lost, and with it a database that is in memory.  Of a database in a file only
the connection would be lost, and its rows would be there for the next one. -/
def crash : Step Table α :=
  .fail ⟨none⟩ (.connection "")

def findRow? (rows : List Row) (id : String) : Option Row :=
  rows.find? fun r => r.id = id

def replaceRow (rows : List Row) (r : Row) : Table :=
  ⟨some (rows.map fun s => if s.id = r.id then r else s)⟩

/-- The oldest rows that the filter admits, going by their texts, oldest first. -/
def oldestRows (rows : List Row) (filter : TaskFilter) (limit : Nat) : List Row :=
  ((rows.filter (·.isAdmitted filter)).mergeSort fun a b => !b.before a).take limit

/-- The result of a step that only reads. -/
def answer (t : Table) (result : Except StoreError α) : Step Table α :=
  ⟨result.mapError .error, t, []⟩

/-- Adds a row, unless its identifier is taken or its status unknown. -/
def insertRow (t : Table) (r : Row) : Step Table Unit :=
  t.withRows fun rows =>
    if (findRow? rows r.id).isSome ∨ (Status.ofName? r.status).isNone then .fail t .database
    else .done ⟨some (rows ++ [r])⟩ ()

def insert (t : Table) (task : Task) : Step Table Unit :=
  t.insertRow (.ofTask task)

def enqueue (t : Table) (moment : Moment) (new : NewTask) : Step Table Task :=
  let task := Task.ofNew new moment.freshId moment.created
  let s := t.insert task
  { result := s.result.map fun _ => task, store := s.store, notices := s.notices }

def get (t : Table) (id : TaskId) : Step Table (Option Task) :=
  t.withRows fun rows =>
    match findRow? rows id.text with
    | none => .done t none
    | some r => t.answer (r.task.map some)

def list (t : Table) (filter : TaskFilter) (limit : Nat) : Step Table (List Task) :=
  t.withRows fun rows => t.answer ((oldestRows rows filter limit).mapM Row.task)

/-- Goes through the candidates, reports on their payloads and schedules, and takes the first one
whose payload can be read and whose window is open at the given hour. -/
def pick (hour : Nat) : List Row → List Notice × Option Row
  | [] => ([], none)
  | r :: rest =>
    match Json.parse? r.payload with
    | none =>
      let (more, picked) := pick hour rest
      (.unreadablePayload r.id :: more, picked)
    | some payload =>
      let notices := Schedule.notices payload
      if Schedule.admits payload hour then (notices, some r)
      else
        let (more, picked) := pick hour rest
        (notices ++ more, picked)

/-- Hands out the oldest waiting task whose window is open, looking at no more than `limit`.  Its
row changes before the other columns are read. -/
def claim (t : Table) (moment : Moment) (limit : Nat) (time : ZonedTime) :
    Step Table (Option Task) :=
  t.withRows fun rows =>
    match pick time.hour (oldestRows rows .waiting limit) with
    | (notices, none) => ⟨.ok none, t, notices⟩
    | (notices, some r) =>
      let taken :=
        { r with status := Status.processing.name, updatedAt := moment.now.stamp }
      ⟨(taken.task.map some).mapError .error, replaceRow rows taken, notices⟩

def control (t : Table) (id : TaskId) : Step Table (Option ControlState) :=
  t.withRows fun rows =>
    match findRow? rows id.text with
    | none => .done t none
    | some r =>
      t.answer ((Row.statusOf r.status).map fun status => some ⟨status, r.archived⟩)

/-- Changes the result of a row, and its status if one is given. -/
def modify (t : Table) (moment : Moment) (id : TaskId) (status : Option Status)
    (f : TaskResult → Option (TaskResult × α)) : Step Table α :=
  t.withRows fun rows =>
    match findRow? rows id.text with
    | none => .fail t (.taskNotFound id)
    | some r =>
      match Row.resultOf? r.result with
      | none => .fail t (.corrupt id.text .result)
      | some result =>
        match f result with
        | none => crash
        | some (result, a) =>
          .done
            (replaceRow rows
              { r with
                result := result.encode.compact
                status := (status.map Status.name).getD r.status
                updatedAt := moment.now.stamp })
            a

def patch (t : Table) (moment : Moment) (id : TaskId) (p : ResultPatch) : Step Table Unit :=
  t.modify moment id none fun result => some (result.apply p, ())

def finalize (t : Table) (moment : Moment) (id : TaskId) (p : ResultPatch) (status : Status) :
    Step Table Unit :=
  if status.isTerminal then
    t.modify moment id (some status) fun result => some (result.applyFinal p, ())
  else .fail t (.invalidStatus status.name)

def append (t : Table) (moment : Moment) (id : TaskId) (lines : List String) (window : Nat) :
    Step Table Snapshot :=
  t.modify moment id none fun result =>
    (result.snapshot.push? lines window).map fun s => (result.withLog s, s)

def snapshot (t : Table) (id : TaskId) : Step Table (Option Snapshot) :=
  t.withRows fun rows =>
    match findRow? rows id.text with
    | none => .done t none
    | some r =>
      match Row.resultOf? r.result with
      | none => .fail t (.corrupt id.text .result)
      | some result => .done t (some result.snapshot)

def pause (t : Table) (moment : Moment) (id : TaskId) : Step Table Bool :=
  t.withRows fun rows =>
    match findRow? rows id.text with
    | none => .done t false
    | some r =>
      if (Status.ofName? r.status).any Status.isPausable then
        .done
          (replaceRow rows
            { r with status := Status.paused.name, updatedAt := moment.now.stamp })
          true
      else .done t false

/-- Puts a task that failed or was paused back into the queue. -/
def retry (t : Table) (moment : Moment) (id : TaskId) : Step Table Bool :=
  t.withRows fun rows =>
    match findRow? rows id.text with
    | none => .done t false
    | some r =>
      match Row.statusOf r.status with
      | .error e => .fail t e
      | .ok status =>
        if status.isRetryable then
          match Row.resultOf? r.result with
          | none => .fail t (.corrupt id.text .result)
          | some result =>
            .done
              (replaceRow rows
                { r with
                  status := Status.queued.name
                  retries := r.retries + 1
                  result := (result.apply .runReset).encode.compact
                  updatedAt := moment.now.stamp })
              true
        else .done t false

def archive (t : Table) (moment : Moment) (id : TaskId) (archived : Bool) : Step Table Bool :=
  t.withRows fun rows =>
    match findRow? rows id.text with
    | none => .done t false
    | some r =>
      .done (replaceRow rows { r with archived := archived, updatedAt := moment.now.stamp }) true

def delete (t : Table) (id : TaskId) : Step Table Bool :=
  t.withRows fun rows =>
    .done ⟨some (rows.filter fun r => r.id ≠ id.text)⟩ (findRow? rows id.text).isSome

end Table

end TaskQueue.Store
