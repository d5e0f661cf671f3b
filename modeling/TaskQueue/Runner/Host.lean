import TaskQueue.Runner.Drain

/-!
# Hosts of a drain

A host answers the calls of a drain from a state of its own.  `Drain.advance` makes the next call of
a drain and takes in the answer, and `Drain.run` goes on until the drain is over.
-/

namespace TaskQueue.Runner

structure Host (σ : Type) where
  config : Config
  claim : σ → Except Fault (Option Task) × σ
  answer : (c : Call) → σ → c.Reply × σ
  now : σ → Nat

/-- A drain in the course of its work; none in place of one that crashed. -/
structure Course (σ : Type) where
  drain : Option Drain
  shared : Shared
  /-- What has been reported, oldest first. -/
  notices : List Notice
  state : σ

namespace Course

def take (c : Course σ) (state : σ) : Option Drain × Shared × List Notice → Course σ
  | (drain, shared, notices) => { drain, shared, notices := c.notices ++ notices, state }

def advance (h : Host σ) (c : Course σ) : Course σ :=
  match c.drain with
  | none => c
  | some (.done _) => c
  | some (.opening pass) =>
    c.take c.state ((Drain.opening pass).next h.config (h.now c.state) c.shared ())
  | some (.claiming pass) =>
    let (result, state) := h.claim c.state
    c.take state ((Drain.claiming pass).next h.config (h.now state) c.shared result)
  | some (.processing pass began stage) =>
    let (reply, state) := h.answer stage.call c.state
    c.take state
      ((Drain.processing pass began stage).next h.config (h.now state) c.shared reply)
  | some (.ending pass) =>
    c.take c.state ((Drain.ending pass).next h.config (h.now c.state) c.shared ())

def isOver (c : Course σ) : Bool :=
  match c.drain with
  | none => true
  | some (.done _) => true
  | some _ => false

/-- Goes on until there is nothing more to do, for at most `fuel` calls; none if that is not
enough. -/
def run (h : Host σ) : Nat → Course σ → Option (Course σ)
  | 0, c => if c.isOver then some c else none
  | fuel + 1, c => if c.isOver then some c else run h fuel (c.advance h)

def start (state : σ) : Course σ :=
  let (drain, shared) := Drain.start .idle
  ⟨drain, shared, [], state⟩

end Course

end TaskQueue.Runner
