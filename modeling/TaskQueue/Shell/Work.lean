import TaskQueue.Shell.Evaluation
import TaskQueue.Shell.Invocation
import TaskQueue.Shell.Lines
import TaskQueue.Shell.Streaming

/-!
# Performing a task

A task is performed by running its command.  A task without a proper command fails, and so does one
whose program cannot be started.
-/

namespace TaskQueue.Shell

open Execution (Failure Verdict)

/-- Where a command runs: the variables of its environment, the files, and its directory. -/
structure Surroundings where
  env : Config.Environment
  files : Files.Tree
  directory : Files.Place

def firstProcess : Nat := 4096

def lettersOf (s : String) : String :=
  Bytes.letters (Bytes.ofString s)

namespace Surroundings

/-- The process of a command before it starts: its input is empty, and its two streams are kept. -/
def start (place : Surroundings) : State :=
  let outside : Outside :=
    { files := place.files
      streams :=
        #[⟨.null, true, false⟩, ⟨.buffer [], false, true⟩, ⟨.buffer [], false, true⟩]
      nextProcess := firstProcess + 1
      signals := []
      steps := 0 }
  let env := place.env.map fun p => (lettersOf p.1, lettersOf p.2)
  .start outside place.directory env [(0, 0), (1, 1), (2, 2)] firstProcess
    ⟨Action.maxSteps, 24⟩

def searchPath (place : Surroundings) : String :=
  (place.env.get? "PATH").getD standardSearch

def writtenTo (o : Outside) (n : Nat) : Bytes :=
  match o.streams[n]? with
  | some ⟨.buffer chunks, _, _⟩ => chunks.reverse.flatten
  | _ => []

/-- Starts a command and runs it to its end: what it has written, and what it leaves behind. -/
def run (place : Surroundings) (i : Invocation) : Except SpawnFlaw (Finished × Surroundings) :=
  if i.texts.any fun s => s.toList.contains '\x00' then .error .zero
  else
    let name := lettersOf i.program
    (Programs.search place.files place.directory place.searchPath name).map fun (_, program) =>
      let work := Action.runIn Action.maxNested program name (i.arguments.map lettersOf)
      let (ending?, s) : Option ProcessEnd × State :=
        match work place.start with
        | .ok _ s => (none, s)
        | .error (.killed signal) s => (some (.killed signal), s)
        | .error _ s => (none, s)
      (⟨writtenTo s.outside 1, writtenTo s.outside 2, ending?.getD (.exited (UInt8.ofNat s.status))⟩,
        { place with files := s.outside.files })

/-- Performs a task with the given payload, and offers its lines to a store.  A task that was
cancelled beforehand starts its command all the same, and stops it at once. -/
def perform (place : Surroundings) (offer : List String → σ → σ) (window : Nat)
    (cancelled : Bool) (payload : Json) (store : σ) : Verdict × σ × Surroundings :=
  match Invocation.ofPayload payload with
  | .error flaw => (.failure (.ofMessage flaw.message), store, place)
  | .ok i =>
    match place.run i with
    | .error flaw => (.failure (.ofMessage (startFailure i flaw)), store, place)
    | .ok (p, after) =>
      if cancelled then
        let (v, store) := stream offer window [] .cancelled store
        (v, store, place)
      else
        let (v, store) := stream offer window (batchesOf maxBatch p.lines) (.ended p.ending) store
        (v, store, after)
where
  startFailure (i : Invocation) (flaw : SpawnFlaw) : String :=
    "Failed to start '" ++ i.program ++ "': " ++ flaw.message

end Surroundings

end TaskQueue.Shell
