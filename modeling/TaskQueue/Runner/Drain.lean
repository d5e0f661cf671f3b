import TaskQueue.Runner.Stage
import TaskQueue.Runner.Trigger

/-!
# Draining the queue

A drain makes passes.  In a pass it claims one task after the other and processes it, until there is
no task to claim or the claim fails.  When another trigger has come in the meantime, another pass
follows.
-/

namespace TaskQueue.Runner

/-- A drain and the number of the pass that it is in.  The number is at most that of the events that
there have been, so it stays within 32 bits as long as that does. -/
inductive Drain where
  | opening (pass : Nat)
  | claiming (pass : Nat)
  | processing (pass : Nat) (began : Nat) (s : Stage)
  | ending (pass : Nat)
  | done (passes : Nat)
  deriving DecidableEq, Repr

namespace Drain

/-- A trigger: the drain that it starts, none if it is coalesced. -/
def start (shared : Shared) : Option Drain × Shared :=
  match shared.trigger with
  | (true, shared) => (some (.opening 1), shared)
  | (false, shared) => (none, shared)

def opened (pass : Nat) (shared : Shared) : Drain × Shared :=
  (.claiming pass, shared.beginPass)

/-- Takes in the reply to a claim; none if it crashed, and the drain with it. -/
def claimed (pass now : Nat) : Except Fault (Option Task) → Option Drain × List Notice
  | .ok (some t) => (some (.processing pass now (.starting t)), [])
  | .ok none => (some (.ending pass), [])
  | .error (.error e) => (some (.ending pass), [.claimFailed e])
  | .error (.crash _) => (none, [])

/-- Goes on after a stage of the current task; at its end the task is counted. -/
def staged (pass began : Nat) (shared : Shared) : Option Stage → Drain × Shared
  | some s => (.processing pass began s, shared)
  | none => (.claiming pass, shared.countTask)

/-- Ends a pass; another one follows if there has to be one. -/
def passed (pass : Nat) (shared : Shared) : Drain × Shared :=
  match shared.endPass with
  | (true, shared) => (.opening (pass + 1), shared)
  | (false, shared) => (.done pass, shared)

def Answer : Drain → Type
  | .opening _ => Unit
  | .claiming _ => Except Fault (Option Task)
  | .processing _ _ s => s.call.Reply
  | .ending _ => Unit
  | .done _ => Empty

/-- Goes on with an answer: the drain, none if it crashed, the runner, and what is reported. -/
def next (config : Config) (now : Nat) (shared : Shared) :
    (d : Drain) → d.Answer → Option Drain × Shared × List Notice
  | .opening pass, _ =>
    let (d, shared) := opened pass shared
    (some d, shared, [])
  | .claiming pass, (answer : Except Fault (Option Task)) =>
    let (d, notices) := claimed pass now answer
    (d, if d.isNone then shared.abandon else shared, notices)
  | .processing pass began s, reply =>
    let (stage, notices) := s.next config ⟨began, now⟩ reply
    let (d, shared) := staged pass began shared stage
    (some d, shared, notices)
  | .ending pass, _ =>
    let (d, shared) := passed pass shared
    (some d, shared, [])

end Drain

end TaskQueue.Runner
