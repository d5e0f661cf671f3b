import TaskQueue.Cli.Command
import TaskQueue.Log.View
import TaskQueue.Store.Session

/-!
# A store and those who use it

A site is a store in use together with the observers of its logs.  An operation is what an operator
does there, and its outcome is what the operator gets to see.
-/

namespace TaskQueue.Simulation

open Log (Delta View)
open Store (Backend Request Row Session Step)
open Time (Instant)

structure Site where
  session : Session
  views : List (String × View)

inductive Operation where
  /-- A request to the store; a new task gets the identifier. -/
  | request (r : Request) (freshId : TaskId)
  | insertRow (row : Row)
  | migrate
  | size
  | view (name : String) (id : TaskId)
  | command (c : Cli.Command) (freshId : TaskId)

inductive Outcome where
  | answered (r : Request) (result : Except Fault r.Answer)
  | inserted (result : Except Fault Unit)
  | migrated (result : Except Fault Unit)
  | counted (result : Except Fault Nat)
  | viewed (result : Except Fault (Option (Delta × View)))
  | reported (r : Cli.Report)
  | unsupported

namespace Site

/-- A store of some kind, with a clock that starts at an instant. -/
def start (backend : Backend) (reading : Instant) : Site :=
  ⟨.start backend reading, []⟩

def withBackend (s : Site) (b : Backend) : Site :=
  { s with session := { s.session with backend := b } }

def perform (s : Site) (freshId : TaskId) (r : Request) : Step Site r.Answer :=
  (s.session.perform freshId r).mapStore fun session => { s with session := session }

def viewNamed (s : Site) (name : String) : View :=
  ((s.views.find? fun p => p.1 = name).map Prod.snd).getD .empty

def setView (s : Site) (name : String) (v : View) : Site :=
  { s with views := (name, v) :: s.views.filter fun p => p.1 ≠ name }

def updateView (s : Site) (name : String) (id : TaskId) :
    Except Fault (Option (Delta × View)) × Site :=
  let step := s.perform default (.snapshot id)
  match step.result with
  | .error e => (.error e, step.store)
  | .ok none => (.ok none, step.store)
  | .ok (some snapshot) =>
    match (step.store.viewNamed name).update? snapshot with
    | none => (.error (.crash ""), step.store)
    | some (delta, v) => (.ok (some (delta, v)), step.store.setView name v)

/-- Runs an operation that only stores in tables have. -/
def onTable (s : Site) (f : Store.Table → Step Store.Table α) (g : Except Fault α → Outcome) :
    Outcome × Site :=
  match s.session.backend with
  | .table t =>
    let step := f t
    (g step.result, s.withBackend (.table step.store))
  | _ => (.unsupported, s)

def size (s : Site) : Outcome :=
  match s.session.backend with
  | .memory m => .counted m.size.result
  | _ => .unsupported

def command (s : Site) (freshId : TaskId) (c : Cli.Command) : Cli.Report × Site :=
  let (report, session) := s.session.use freshId c.perform
  (report, { s with session := session })

def operate (s : Site) : Operation → Outcome × Site × List Notice
  | .request r freshId =>
    let step := s.perform freshId r
    (.answered r step.result, step.store, step.notices)
  | .insertRow row =>
    let (o, s) := s.onTable (·.insertRow row) .inserted
    (o, s, [])
  | .migrate =>
    let (o, s) := s.onTable (·.migrate) .migrated
    (o, s, [])
  | .size => (s.size, s, [])
  | .view name id =>
    let (result, s) := s.updateView name id
    (.viewed result, s, [])
  | .command c freshId =>
    let (report, s) := s.command freshId c
    (.reported report, s, [])

def operateAll (s : Site) (ops : List Operation) : Site × List Notice :=
  ops.foldl
    (fun (s, notices) op =>
      let (_, s, more) := s.operate op
      (s, notices ++ more))
    (s, [])

/-- A look at a log that is followed: the first one, or one of those after it. -/
def look (s : Site) (first : Bool) (id : TaskId) (seen : Nat) : Cli.Look × Site :=
  let (look, session) :=
    s.session.use default fun b moment =>
      if first then Cli.firstLook b moment id seen else Cli.nextLook b moment id seen
  (look, { s with session := session })

end Site

end TaskQueue.Simulation
