import TaskQueue.Bytes

/-!
# Processes

A process writes bytes to its two streams, and it ends with an exit code or by a signal.
-/

namespace TaskQueue.Shell

/-- The names of the signals; the first one has number 1. -/
def signalNames : List String :=
  ["HUP", "INT", "QUIT", "ILL", "TRAP", "ABRT", "BUS", "FPE", "KILL", "USR1", "SEGV", "USR2",
   "PIPE", "ALRM", "TERM", "STKFLT", "CHLD", "CONT", "STOP", "TSTP", "TTIN", "TTOU", "URG", "XCPU",
   "XFSZ", "VTALRM", "PROF", "WINCH", "IO", "PWR", "SYS"]

/-- The name of a signal, without what all names begin with. -/
def signalName? (number : Nat) : Option String :=
  if number = 0 then none else signalNames[number - 1]?

/-- The signals that do nothing to a process that does not ask for them. -/
def harmlessSignals : List Nat :=
  [17, 18, 23, 28]

inductive ProcessEnd where
  | exited (code : UInt8)
  | killed (signal : Nat)
  deriving DecidableEq, Repr, Inhabited

namespace ProcessEnd

def isSuccess : ProcessEnd → Bool
  | .exited code => code = 0
  | .killed _ => false

/-- The exit code, if there is one. -/
def code? : ProcessEnd → Option UInt8
  | .exited code => some code
  | .killed _ => none

def description : ProcessEnd → String
  | .exited code => s!"exit status: {code.toNat}"
  | .killed signal =>
    match signalName? signal with
    | some name => s!"signal: {signal} (SIG{name})"
    | none => s!"signal: {signal}"

/-- The status by which a shell knows this end. -/
def status : ProcessEnd → UInt8
  | .exited code => code
  | .killed signal => UInt8.ofNat (128 + signal)

end ProcessEnd

structure Finished where
  out : Bytes
  err : Bytes
  ending : ProcessEnd
  deriving DecidableEq, Repr

inductive Written where
  | out (text : String)
  /-- A complaint, before which the name of the program is to be set. -/
  | err (message : String)
  deriving DecidableEq, Repr

/-- What a program has done: the texts have a character for each byte. -/
structure Report where
  written : List Written
  code : UInt8
  deriving DecidableEq, Repr

namespace Report

/-- Only an exit code. -/
def ofCode (code : UInt8) : Report :=
  ⟨[], code⟩

def ofText (text : String) : Report :=
  ⟨[.out text], 0⟩

def complain (code : UInt8) (message : String) : Report :=
  ⟨[.err message], code⟩

end Report

end TaskQueue.Shell
