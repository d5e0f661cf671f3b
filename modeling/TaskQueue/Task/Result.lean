import TaskQueue.Json.Object
import TaskQueue.Log.Snapshot

/-!
# Results of tasks

A task carries the result of its runs.  A patch says which parts of a result change: parts that it
sets are replaced, the message is kept, cleared or set, and the extra members are edited one by
one, where null takes a member out.
-/

namespace TaskQueue

structure TaskResult where
  logs : List String
  seq : Nat
  output : String
  providerRef : Option String
  message : Option String
  extra : Json.Object
  deriving DecidableEq, Repr

inductive MessageEdit where
  | keep
  | clear
  | set (message : String)
  deriving DecidableEq, Repr, Inhabited

def MessageEdit.apply : MessageEdit → Option String → Option String
  | .keep, old => old
  | .clear, _ => none
  | .set message, _ => some message

structure ResultPatch where
  logs : Option (List String)
  seq : Option Nat
  output : Option String
  providerRef : Option String
  message : MessageEdit
  extra : Json.Object
  deriving DecidableEq, Repr

namespace ResultPatch

def empty : ResultPatch :=
  ⟨none, none, none, none, .keep, .empty⟩

instance : Inhabited ResultPatch :=
  ⟨empty⟩

def runReset : ResultPatch :=
  { empty with logs := some [], seq := some 0, output := some "", message := .clear }

def isEmpty (p : ResultPatch) : Bool :=
  p.logs.isNone ∧ p.seq.isNone ∧ p.output.isNone ∧ p.providerRef.isNone ∧ p.message = .keep ∧
    p.extra.isEmpty

end ResultPatch

namespace TaskResult

def empty : TaskResult :=
  ⟨[], 0, "", none, none, .empty⟩

instance : Inhabited TaskResult :=
  ⟨empty⟩

def snapshot (r : TaskResult) : Log.Snapshot :=
  ⟨r.logs, r.seq⟩

def withLog (r : TaskResult) (s : Log.Snapshot) : TaskResult :=
  { r with logs := s.lines, seq := s.seq }

def apply (r : TaskResult) (p : ResultPatch) : TaskResult where
  logs := p.logs.getD r.logs
  seq := p.seq.getD r.seq
  output := p.output.getD r.output
  providerRef := p.providerRef.or r.providerRef
  message := p.message.apply r.message
  extra := r.extra.merge p.extra

/-- Makes the changes of the last patch of a run, which never lowers the count of lines. -/
def applyFinal (r : TaskResult) (p : ResultPatch) : TaskResult :=
  let next := r.apply p
  { next with seq := max (max next.seq r.seq) next.logs.length }

end TaskResult

end TaskQueue
