import TaskQueue.Shell.Condition
import TaskQueue.Shell.Format
import TaskQueue.Shell.Sequence
import TaskQueue.Shell.View

/-!
# Programs

The programs that a command can call besides the shell, and where they are found.
-/

namespace TaskQueue.Shell

open Files (PathFlaw Place Tree)

inductive SpawnFlaw where
  | path (flaw : PathFlaw)
  | denied
  /-- An argument has a zero in it. -/
  | zero
  deriving DecidableEq, Repr, Inhabited

namespace SpawnFlaw

def number? : SpawnFlaw → Option Nat
  | .path .notDirectory => some 20
  | .path .tooLong => some 36
  | .path .zero => none
  | .path _ => some 2
  | .denied => some 13
  | .zero => none

def message (f : SpawnFlaw) : String :=
  match f, f.number? with
  | .path flaw, some n => s!"{flaw.message} (os error {n})"
  | .denied, _ => "Permission denied (os error 13)"
  | _, _ => "nul byte found in provided data"

/-- What a shell says about a program that it cannot start, and its status then. -/
def complaint : SpawnFlaw → String × Nat
  | .denied => ("Permission denied", 126)
  | .path .tooLong => ("File name too long", 127)
  | _ => ("not found", 127)

end SpawnFlaw

namespace Programs

def names : List String :=
  ["sh", "dash", "echo", "printf", "seq", "cat", "true", "false", "sleep", "test", "["]

/-- The directories in which the programs are. -/
def directories : List Place :=
  ["usr/bin", "bin"].map Files.placeOf

def at? (place : Place) : Option String :=
  names.find? fun name => directories.any fun d => d ++ [Files.Name.ofString name] = place

def atPath (t : Tree) (directory : Place) (path : String) : Except SpawnFlaw String :=
  match t.follow directory (Bytes.ofLetters path) with
  | .error flaw => .error (.path flaw)
  | .ok place =>
    match at? place, t.find? place with
    | some name, none =>
      if path.toList.getLast? = some '/' then .error (.path .notDirectory) else .ok name
    | _, some _ => .error .denied
    | none, none =>
      if (at? place.dropLast).isSome then .error (.path .notDirectory) else .error (.path .missing)

/-- The path of a program and the program, for a name and the directories to look in. -/
def search (t : Tree) (directory : Place) (path name : String) :
    Except SpawnFlaw (String × String) :=
  if name = "" then .error (.path .missing)
  else if name.toList.contains '/' then (atPath t directory name).map fun p => (name, p)
  else if Files.maxName < name.length then .error (.path .tooLong)
  else
    let tries := (path.splitOn ":").map fun d =>
      let full := if d = "" then name else Files.join d name
      (atPath t directory full).map fun p => (full, p)
    match tries.findSome? Except.toOption with
    | some p => .ok p
    | none =>
      let isDenied : Except SpawnFlaw (String × String) → Bool
        | .error .denied => true
        | _ => false
      .error (if tries.any isDenied then .denied else .path .missing)

/-- Writes what a program has to say, with its name before complaints. -/
def emit (name : String) (r : Report) : Action Nat := do
  let mut code := r.code.toNat
  for w in r.written do
    match w with
    | .out text =>
      unless text = "" ∨ (← Action.write 1 text) do
        let _ ← Action.write 2 (name ++ ": write error: Bad file descriptor\n")
        code := 1
        break
    | .err message =>
      let _ ← Action.write 2 (name ++ ": " ++ message ++ "\n")
  return code

/-- What stands in a file, or in the input for a dash. -/
def contentOf (path : String) : Action (Except String Bytes) := do
  let s ← get
  let stream := if path = "-" then s.stream? 0 else s.device? path
  match stream with
  | some n => return (← Action.readAll n).elim (.error "Bad file descriptor") .ok
  | none =>
    if path = "-" then return .error "Bad file descriptor"
    else
      match s.outside.files.read s.directory (Bytes.ofLetters path) with
      | .ok bs => return .ok bs
      | .error flaw => return .error flaw.message

/-- Whether a path stands for the file that is written to, and there is something to be read. -/
def isWritten (s : State) (path : String) : Bool :=
  let source? : Option (Place × Nat) :=
    if path = "-" then
      match (s.stream? 0).bind (s.outside.streams[·]?) with
      | some ⟨.file place position _, _, _⟩ => some (place, position)
      | _ => none
    else (s.outside.files.look s.directory (Bytes.ofLetters path)).toOption.map fun p => (p.1, 0)
  match source?, (s.stream? 1).bind (s.outside.streams[·]?) with
  | some (place, position), some ⟨.file target _ appends, _, _⟩ =>
    let size : Nat :=
      match s.outside.files.find? place with
      | some (.file content) => content.length
      | _ => 0
    place = target && (appends || position < size) && position < size
  | _, _ => false

def cat (name : String) (arguments : List String) : Action Nat := do
  match View.options .plain arguments with
  | .error message =>
    emit name (.complain 1 (message ++ "\nTry '" ++ name ++ " --help' for more information."))
  | .ok (v, paths) =>
    let mut code := 0
    let mut progress : View.Progress := .start
    for path in if paths = [] then ["-"] else paths do
      if isWritten (← get) path then
        code := ← emit name (.complain 1 (Quoting.reusable path ++ ": input file is output file"))
      else
        match ← contentOf path with
        | .ok bs =>
          let (text, p) := v.present progress (Bytes.letters bs)
          progress := p
          let failed ← emit name (.ofText text)
          if failed ≠ 0 then return failed
        | .error reason =>
          code := ← emit name (.complain 1 (Quoting.reusable path ++ ": " ++ reason))
    if (paths = [] ∨ paths.contains "-") ∧ ((← get).stream? 0).isNone then
      code := ← emit name (.complain 1 "closing standard input: Bad file descriptor")
    return code

/-- What can be asked about files: whoever asks may read and write all of them. -/
def inspection (s : State) : Inspection where
  file := fun operator path =>
    let path := Bytes.ofLetters path
    match s.outside.files.follow s.directory path with
    | .error _ => false
    | .ok place =>
      match s.outside.files.find? place with
      | none => (at? place).isSome && operator ∈ ["-e", "-f", "-r", "-w", "-x", "-s", "-O", "-G"]
      | some (.file content) =>
        operator ∈ ["-e", "-f", "-r", "-w", "-O", "-G"] || (operator = "-s" && content ≠ [])
      | some .directory => operator ∈ ["-e", "-d", "-r", "-w", "-x", "-s", "-O", "-G"]
      | some .null => operator ∈ ["-e", "-c", "-r", "-w", "-O", "-G"]
  files := fun operator first second =>
    let place? (path : String) : Option Place :=
      (s.outside.files.look s.directory (Bytes.ofLetters path)).toOption.map (·.1)
    operator = "-ef" && (place? first).isSome && place? first = place? second

/-- The condition in arguments; after an opening bracket there has to be a closing one. -/
def condition (s : State) (name : String) (arguments : List String) :
    Except ConditionFlaw Bool :=
  let i := inspection s
  if name ≠ "[" then Condition.evaluate i arguments.length arguments
  else if arguments.getLast?.any fun a => a.toList.head? = some ']' then
    Condition.evaluate i arguments.length arguments.dropLast
  else .error .missingBracket

/-- A `sleep`, which takes no time. -/
def sleep (arguments : List String) : Report :=
  let hint := "\nTry 'sleep --help' for more information."
  let isInterval (s : String) : Bool :=
    match Decimal.BinaryFormat.extended.read? s.toList with
    | some (q, _, rest) =>
      !q.isNegative && (rest = [] || rest = ['s'] || rest = ['m'] || rest = ['h'] || rest = ['d'])
    | none => false
  if arguments = [] then .complain 1 ("missing operand" ++ hint)
  else
    match arguments.filter fun s => ¬isInterval s with
    | [] => .ofCode 0
    | bad =>
      .complain 1 ("\nsleep: ".intercalate
        (bad.map fun s => "invalid time interval " ++ Quoting.shown s) ++ hint)

/-- Runs a program under the name by which it was called. -/
def run (program name : String) (arguments : List String) : Action Nat :=
  match program with
  | "echo" => emit name (Echo.program arguments)
  | "printf" =>
    match if arguments.head? = some "--" then arguments.drop 1 else arguments with
    | [] =>
      emit name (.complain 1 ("missing operand\nTry '" ++ name ++ " --help' for more information."))
    | format :: arguments => emit name (Print.run .program format arguments)
  | "seq" => emit name (Sequence.run name arguments)
  | "cat" => cat name arguments
  | "true" => return 0
  | "false" => return 1
  | "sleep" => emit name (sleep arguments)
  | program => do
    match condition (← get) program arguments with
    | .ok b => return if b then 0 else 1
    | .error flaw => emit name (.complain 2 flaw.message)

end Programs

end TaskQueue.Shell
