import TaskQueue.Config.Environment
import TaskQueue.Shell.Condition
import TaskQueue.Shell.Grammar
import TaskQueue.Shell.Process
import TaskQueue.Shell.Stream

/-!
# The state of a shell

A shell has variables, functions and arguments, streams by small numbers, and what it has been told
to do on signals.  It stops before the end of its script when an error occurs or when it is told to.
-/

namespace TaskQueue.Shell

open Files (Place)

structure Variable where
  name : String
  /-- The value, unless the variable is only known to be exported or protected. -/
  value : Option String
  exported : Bool
  readOnly : Bool
  deriving DecidableEq, Repr, Inhabited

inductive Skip where
  | leave (loops : Nat)
  /-- Leaves all but the last of a number of loops, which goes on. -/
  | resume (loops : Nat)
  /-- Leaves a function, or the whole script. -/
  | function
  deriving DecidableEq, Repr, Inhabited

inductive Stop where
  | error
  | exit
  | killed (signal : Nat)
  deriving DecidableEq, Repr, Inhabited

structure Function where
  name : String
  line : Nat
  body : Script
  deriving Inhabited

structure Job where
  process : Nat
  status : Nat
  /-- The signal by which it was ended, if it was. -/
  signal : Option Nat
  awaited : Bool
  deriving DecidableEq, Repr, Inhabited

/-- What was there before something local to a function or a command. -/
structure Saved where
  vars : List (String × Option Variable)
  options : Option (List Char)
  deriving DecidableEq, Repr, Inhabited

/-- How long a process may run. -/
structure Allowance where
  /-- The number of steps of all processes at which it ends. -/
  steps : Nat
  /-- The signal by which it ends. -/
  signal : Nat

structure Situation where
  outside : Outside
  directory : Place
  name : String
  arguments : List String
  vars : List Variable
  functions : List Function
  aliases : List (String × String)
  documents : Array Word
  options : List Char
  process : Nat
  /-- Whether this is a part of another shell, with the same number. -/
  isSubshell : Bool
  background : Option Nat
  /-- What has run in the background, the last one first. -/
  jobs : List Job
  withheld : Nat
  status : Nat
  /-- The status with which the shell ends, once that is certain. -/
  endStatus : Option Nat
  outputStatus : Nat
  line : Nat
  /-- The number of the line up to which the script has been read. -/
  lineRead : Nat
  command : Option String
  /-- The numbers of open streams, and which ones these are. -/
  descriptors : List (Nat × Nat)
  /-- What is done on signals; zero stands for the end of the shell. -/
  traps : List (Nat × String)
  /-- Signals that the process has been told to pass over before it became a shell. -/
  ignored : List Nat
  /-- Signals for which something is still to be done. -/
  caught : List Nat
  skip : Option Skip
  /-- The number of loops around a command, and that of functions. -/
  loops : Nat
  calls : Nat
  /-- The number of texts that are being run, each by the one before. -/
  texts : Nat
  allowance : Allowance
  /-- What is local to functions and commands, as it was before. -/
  saved : List Saved
  /-- The place within an argument at which options are read on. -/
  optionOffset : Option Nat

structure Deferred where
  situation : Situation
  process : Nat
  script : Script
  redirections : List Redirection

/-- The state of a shell.  What it starts in the background begins when the shell has to wait. -/
structure State extends Situation where
  /-- What has not begun yet, the last one first. -/
  deferred : List Deferred

/-- A computation of a shell, which may stop it. -/
abbrev Action (α : Type) := EStateM Stop State α

def separatorsName : String := "IFS"

/-- The directories in which programs are looked for unless a variable says more. -/
def standardSearch : String :=
  "/usr/local/sbin:/usr/local/bin:/usr/sbin:/usr/bin:/sbin:/bin"

def pathOf (place : Place) : String :=
  "/" ++ "/".intercalate (place.map Bytes.letters)

/-- The number of the stream that a path in the directory of devices stands for. -/
def deviceNumber? (path : String) : Option Nat :=
  let numbered := "/dev/fd/"
  let digits := path.toList.drop numbered.length
  if path = "/dev/stdin" then some 0
  else if path = "/dev/stdout" then some 1
  else if path = "/dev/stderr" then some 2
  else if numbered.toList.isPrefixOf path.toList ∧ digits ≠ [] ∧ digits.all Char.isDigit then
    some (Decimal.value digits)
  else none

namespace State

/-- The variables of a new shell that its environment does not set. -/
def standardVariables : List (String × String) :=
  [(separatorsName, " \t\n"), ("OPTIND", "1"), ("PATH", standardSearch), ("PS1", "# "),
   ("PS2", "> "), ("PS4", "+ ")]

def ownVariables (directory : Place) (process : Nat) : List Variable :=
  [⟨"PPID", some (toString (process - 1)), false, false⟩,
   ⟨"PWD", some (pathOf directory), true, false⟩]

/-- A shell before its first command.  Variables whose names are none of a shell are not known. -/
def start (outside : Outside) (directory : Place) (env : Config.Environment)
    (descriptors : List (Nat × Nat)) (process : Nat) (allowance : Allowance) : State where
  outside := outside
  directory := directory
  name := "sh"
  arguments := []
  vars :=
    let own := ownVariables directory process
    let isOwn (name : String) : Bool :=
      own.any (·.name = name) || name = separatorsName || name = "OPTIND"
    let given := (env.filter fun p => isName p.1 ∧ ¬isOwn p.1).map
      fun (name, value) => Variable.mk name (some value) true false
    own ++ given ++ (standardVariables.filter fun p => ¬given.any (·.name = p.1)).map
      fun (name, value) => ⟨name, some value, false, false⟩
  functions := []
  aliases := []
  documents := #[]
  options := []
  process := process
  isSubshell := false
  background := none
  jobs := []
  withheld := 18
  status := 0
  endStatus := none
  outputStatus := 0
  line := 1
  lineRead := 1
  command := none
  descriptors := descriptors
  traps := []
  ignored := []
  caught := []
  skip := none
  loops := 0
  calls := 0
  texts := 0
  allowance := allowance
  saved := []
  optionOffset := none
  deferred := []

def lookup? (s : State) (name : String) : Option Variable :=
  s.vars.find? fun v => v.name = name

def value? (s : State) (name : String) : Option String :=
  (s.lookup? name).bind (·.value)

def isReadOnly (s : State) (name : String) : Bool :=
  (s.lookup? name).any (·.readOnly)

/-- Puts a variable in the place of the one with its name. -/
def putVariable (s : State) (v : Variable) : State :=
  { s with vars := v :: s.vars.filter fun w => w.name ≠ v.name }

def dropVariable (s : State) (name : String) : State :=
  { s with vars := s.vars.filter fun w => w.name ≠ name }

def environment (s : State) : Config.Environment :=
  s.vars.filterMap fun v =>
    if v.exported then v.value.map fun value => (v.name, value) else none

def passedOver (s : State) : List Nat :=
  s.ignored ++ (s.traps.filter fun p => p.1 ≠ 0 ∧ p.2 = "").map Prod.fst

def has (s : State) (option : Char) : Bool :=
  s.options.contains option

def stream? (s : State) (descriptor : Nat) : Option Nat :=
  s.descriptors.lookup descriptor

/-- The state with a stream under a number, or with none. -/
def direct (s : State) (descriptor : Nat) (stream : Option Nat) : State :=
  { s with descriptors :=
      (stream.map fun n => (descriptor, n)).toList ++
        s.descriptors.filter fun p => p.1 ≠ descriptor }

/-- The stream that a path stands for without being opened. -/
def device? (s : State) (path : String) : Option Nat :=
  (deviceNumber? path).bind s.stream?

def separators (s : State) : List Char :=
  match s.value? separatorsName with
  | some v => v.toList
  | none => [' ', '\t', '\n']

/-- The letters of options, in the order in which they are shown. -/
def optionLetters : List Char :=
  ['u', 'b', 'a', 'C', 'E', 'V', 'v', 'x', 's', 'n', 'm', 'i', 'I', 'f', 'e']

end State

namespace Action

/-- What is said about a process that was ended by a signal. -/
def obituary (signal : Nat) : String :=
  match signal with
  | 1 => "Hangup"
  | 3 => "Quit"
  | 4 => "Illegal instruction"
  | 5 => "Trace/breakpoint trap"
  | 6 => "Aborted"
  | 7 => "Bus error"
  | 8 => "Floating point exception"
  | 9 => "Killed"
  | 10 => "User defined signal 1"
  | 11 => "Segmentation fault"
  | 12 => "User defined signal 2"
  | 14 => "Alarm clock"
  | 15 => "Terminated"
  | 16 => "Stack fault"
  | 24 => "CPU time limit exceeded"
  | 25 => "File size limit exceeded"
  | 26 => "Virtual timer expired"
  | 27 => "Profiling timer expired"
  | 29 => "I/O possible"
  | 30 => "Power failure"
  | 31 => "Bad system call"
  | _ => ""

/-- Writes to a stream of the shell, and tells whether that is possible. -/
def write (descriptor : Nat) (text : String) : Action Bool :=
  modifyGet fun s =>
    match (s.stream? descriptor).bind fun n => s.outside.write? n (Bytes.ofLetters text) with
    | some outside => (true, { s with outside })
    | none => (false, s)

/-- Reads all that is left of a stream; none if it is not to be read. -/
def readAll (stream : Nat) : Action (Option Bytes) :=
  modifyGet fun s =>
    match s.outside.pending? stream with
    | some bs => (some bs, { s with outside := s.outside.consume stream bs.length })
    | none => (none, s)

/-- Says that a process was ended by a signal, if that is worth it. -/
def mourn (signal : Option Nat) : Action Unit := do
  let said := signal.elim "" obituary
  unless said = "" do
    let _ ← write 2 (said ++ "\n")

def warn (message : String) : Action Unit := do
  let s ← get
  let about := s.command.elim "" fun c => c ++ ": "
  let _ ← write 2 s!"{s.name}: {s.line}: {about}{message}\n"

def setLine (line : Nat) : Action Unit :=
  modify fun s => { s with line }

def setStatus (status : Nat) : Action Unit :=
  modify fun s => { s with status }

/-- Complains and stops because of an error. -/
def fail (message : String) : Action α := do
  warn message
  setStatus 2
  throw .error

/-- Gives a variable a value, unless it is protected or has no proper name. -/
def assign (name value : String) : Action Unit := do
  unless isName name do fail (name ++ ": bad variable name")
  if name = "OPTIND" then
    unless (Condition.number? value).any fun n => 0 ≤ n ∧ n < 2 ^ (31 : Nat) do
      fail ("Illegal number: " ++ value)
    modify fun s => { s with optionOffset := none }
  let s ← get
  match s.lookup? name with
  | some v =>
    if v.readOnly then fail (name ++ ": is read only")
    set (s.putVariable { v with value := some value, exported := v.exported || s.has 'a' })
  | none => set (s.putVariable ⟨name, some value, s.has 'a', false⟩)

/-- Forgets a variable, unless it is protected. -/
def unset (name : String) : Action Unit := do
  let s ← get
  if s.isReadOnly name then fail (name ++ ": is read only")
  set (s.dropVariable name)

/-- Notes what a variable is, so that it can be had back. -/
def saveVariable (name : String) : Action Unit :=
  modify fun s =>
    match s.saved with
    | [] => s
    | frame :: frames =>
      if frame.vars.any fun p => p.1 = name then s
      else
        let frame := { frame with vars := (name, s.lookup? name) :: frame.vars }
        { s with saved := frame :: frames }

/-- Notes the options, so that they can be had back. -/
def saveOptions : Action Unit :=
  modify fun s =>
    match s.saved with
    | [] => s
    | frame :: frames => { s with saved := { frame with options := some s.options } :: frames }

def withSaved (f : Action α) : Action α := do
  modify fun s => { s with saved := ⟨[], none⟩ :: s.saved }
  try f
  finally
    modify fun s =>
      match s.saved with
      | [] => s
      | frame :: frames =>
        let s := frame.vars.foldl (fun s (name, v) => v.elim (s.dropVariable name) s.putVariable) s
        { s with saved := frames, options := frame.options.getD s.options }

/-- Does something that may change what some numbers stand for, and takes that back afterwards. -/
def withDescriptors (numbers : List Nat) (f : Action α) : Action α := do
  let before ← get
  try f
  finally modify fun s => numbers.foldl (fun s d => s.direct d (before.stream? d)) s

def about (command : Option String) (f : Action α) : Action α := do
  let before := (← get).command
  modify fun s => { s with command }
  try f
  finally modify fun s => { s with command := before }

/-- Does something in a process of its own, of which only what it does to shared things is left. -/
def apart (f : Action Unit) : Action (Option Stop) := do
  let s ← get
  let after (t : State) : State :=
    { s with outside := t.outside.closeFrom s.outside.streams.size, status := t.status % 256 }
  match f s with
  | .ok _ t =>
    set (after t)
    return none
  | .error stop t =>
    set (after t)
    return some stop

end Action

end TaskQueue.Shell
