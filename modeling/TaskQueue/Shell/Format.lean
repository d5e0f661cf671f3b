import TaskQueue.Shell.Arithmetic
import TaskQueue.Shell.Conversion
import TaskQueue.Shell.Escape
import TaskQueue.Shell.Process

/-!
# Formatted output

`printf` writes its arguments as a format says, again and again until none is left.  The one of the
shell and the program of that name differ in what they accept and in what they complain about.
-/

namespace TaskQueue.Shell

open Decimal (BinaryFormat Quantity)

/-- Which `printf` it is. -/
inductive Dialect where
  | shell
  | program
  deriving DecidableEq, Repr, Inhabited

inductive PrintStop where
  | done
  | failed (message : String) (code : UInt8)

structure Printing where
  dialect : Dialect
  arguments : List String
  consumed : Bool
  /-- Texts and complaints, newest first. -/
  written : List Written
  flawed : Bool

abbrev Print (α : Type) := EStateM PrintStop Printing α

namespace Print

def write (cs : List Char) : Print Unit :=
  modify fun p => { p with written := .out (String.ofList cs) :: p.written }

def complain (message : String) : Print Unit :=
  modify fun p => { p with written := .err message :: p.written }

def flaw (message : String) : Print Unit := do
  complain message
  modify fun p => { p with flawed := true }

/-- Stops because of the format. -/
def fail (message : String) : Print α := do
  throw (.failed message (if (← get).dialect = .shell then 2 else 1))

/-- Takes the next argument, if there is one. -/
def take? : Print (Option String) :=
  modifyGet fun p =>
    match p.arguments with
    | [] => (none, p)
    | a :: rest => (some a, { p with arguments := rest, consumed := true })

def quotedCharacter? (d : Dialect) (s : String) : Option (Nat × String) :=
  match s.toList with
  | q :: rest =>
    if q = '"' ∨ q = '\'' then
      match rest, d with
      | c :: after, _ => some (c.toNat, String.ofList after)
      | [], .shell => some (0, "")
      | [], .program => none
    else none
  | [] => none

/-- Complains about what stands after a number that an argument begins with. -/
def check (s : String) (found inRange : Bool) (rest : List Char) : Print Unit := do
  let d := (← get).dialect
  let name := if d = .shell then s else Quoting.shown s
  if found ∧ ¬inRange ∧ (d = .program ∨ rest = []) then
    flaw (name ++ ": Numerical result out of range")
  else if rest ≠ [] then
    if found then
      flaw (name ++
        if d = .shell then ": not completely converted" else ": value not completely converted")
    else
      flaw (name ++
        if d = .shell then ": expected numeric value" else ": expected a numeric value")

/-- Takes the next argument as the code of a character or by other means. -/
def takeValue (zero : α) (ofCode : Nat → α) (read : String → Print α) : Print α := do
  match ← take? with
  | none => return zero
  | some s =>
    let d := (← get).dialect
    match quotedCharacter? d s with
    | some (n, rest) =>
      if rest ≠ "" ∧ d = .program then
        complain ("warning: " ++ rest ++
          ": character(s) following character constant have been ignored")
      return ofCode n
    | none => read s

/-- Takes the next argument as an integer of 64 bits. -/
def takeInteger (signed : Bool) : Print Int :=
  takeValue 0 Int.ofNat fun s => do
    match Arithmetic.leadingInt? s.toList with
    | none =>
      check s false true s.toList
      return 0
    | some (n, rest) =>
      let bounded :=
        if signed then max (-(2 ^ (63 : Nat))) (min n (2 ^ (63 : Nat) - 1))
        else if n.natAbs < 2 ^ (64 : Nat) then n
        else 2 ^ (64 : Nat) - 1
      check s true (bounded = n) rest
      return bounded

def takeReal : Print Quantity := do
  let format : BinaryFormat := if (← get).dialect = .shell then .double else .extended
  takeValue (.finite false 0 0) (fun n => format.round false n 1) fun s => do
    match format.read? s.toList with
    | none =>
      check s false true s.toList
      return .finite false 0 0
    | some (q, inRange, rest) =>
      check s true inRange rest
      return q

/-- Writes what an escape stands for. -/
def writeEscape (e : Escape) : Print Unit :=
  match e with
  | .chars cs => write cs
  | .stop => throw .done
  | .malformed message => fail message

/-- Writes an argument with its escapes replaced, as a conversion says. -/
def writeEscaped (c : Conversion) (s : String) : Print Unit := do
  let read := if (← get).dialect = .shell then Escape.inArgument else Escape.ofProgram true
  let (cs, stop) := Escape.replaceAll read s.length s.toList
  write (c.text cs)
  match stop with
  | some e => writeEscape e
  | none => return

/-- What is read of a conversion before its letter: a width or a precision and the rest; a star takes
it from the arguments. -/
def measure (what : String) (cs : List Char) : Print (Option Int × List Char) := do
  match cs with
  | '*' :: rest =>
    let given := (← get).arguments.head?
    let n ← takeInteger true
    if (← get).dialect = .program ∧
        (2 ^ (31 : Nat) ≤ n ∨ (n < -(2 ^ (31 : Nat)) ∧ what = "field width")) then
      fail ("invalid " ++ what ++ ": " ++ Quoting.shown (given.getD ""))
    return (some (Int32.ofInt n).toInt, rest)
  | cs =>
    let (ds, rest) := Decimal.splitDigits cs
    return (if ds = [] then none else some (Decimal.value ds : Nat), rest)

def accepts (c : Conversion) (hasPrecision : Bool) : Bool :=
  let l := c.letter
  l ∈ ['a', 'A', 'c', 'd', 'e', 'E', 'f', 'F', 'g', 'G', 'i', 'o', 's', 'u', 'x', 'X'] &&
    !((c.has '\'' || c.has 'I') && l ∈ ['a', 'A', 'c', 'e', 'E', 'o', 's', 'x', 'X']) &&
    !(c.has '#' && l ∈ ['c', 'd', 'i', 's', 'u']) && !(c.has '0' && l ∈ ['c', 's']) &&
    !(hasPrecision && l = 'c')

def convert (c : Conversion) : Print Unit := do
  let l := c.letter
  if l = 'c' then
    write (c.character (((← take?).bind (·.toList.head?)).getD '\x00'))
  else if l = 's' then write (c.text ((← take?).getD "").toList)
  else if l = 'd' ∨ l = 'i' then write (c.integer (← takeInteger true))
  else if l ∈ ['o', 'u', 'x', 'X'] then write (c.integer (← takeInteger false))
  else write (c.real ((← get).dialect = .program) (← takeReal))

/-- Reads a conversion after the percent sign, carries it out, and gives the rest of the format. -/
def conversion (cs : List Char) : Print (List Char) := do
  let d := (← get).dialect
  let known := ['-', '+', ' ', '#', '0'] ++ if d = .program then ['\'', 'I'] else []
  let flags := cs.takeWhile (known.contains ·)
  let (width, rest) ← measure "field width" (cs.drop flags.length)
  let (precision, hasPrecision, rest) ← match rest with
    | '.' :: rest => do
      let (n, rest) ← measure "precision" rest
      pure (some (n.getD 0), true, rest)
    | rest => pure (none, false, rest)
  let sizes := if d = .program then ['l', 'L', 'h', 'j', 't', 'z'] else []
  let rest := rest.dropWhile (sizes.contains ·)
  let spelled (rest : List Char) : String :=
    String.ofList ('%' :: cs.take (cs.length - rest.length))
  let flags := if width.any (· < 0) then '-' :: flags else flags
  let width := (width.map Int.natAbs).getD 0
  let precision := (precision.filter (0 ≤ ·)).map Int.toNat
  match rest with
  | [] =>
    if d = .shell then fail "missing format character"
    else fail (spelled [] ++ ": invalid conversion specification")
  | l :: rest =>
    let c : Conversion := ⟨flags, width, precision, l⟩
    if d = .shell then
      if l = 'b' then writeEscaped c ((← take?).getD "")
      else if l ∈ ['c', 's', 'd', 'i', 'o', 'u', 'x', 'X', 'a', 'A', 'e', 'E', 'f', 'F', 'g', 'G']
      then convert c
      else fail (spelled rest ++ ": invalid directive")
    else if accepts c hasPrecision then convert c
    else fail (spelled rest ++ ": invalid conversion specification")
    return rest

/-- Goes through a format of at most `n` characters. -/
def pass : Nat → List Char → Print Unit
  | 0, _ => pure ()
  | _, [] => pure ()
  | n + 1, '%' :: '%' :: rest => do
    write ['%']
    pass n rest
  | n + 1, '%' :: rest => do
    match (← get).dialect, rest with
    | .program, 'b' :: rest =>
      match ← take? with
      | some s => writeEscaped ⟨[], 0, none, 'b'⟩ s
      | none => pure ()
      pass n rest
    | .program, 'q' :: rest =>
      match ← take? with
      | some s => write (Quoting.reusable s).toList
      | none => pure ()
      pass n rest
    | _, rest => pass n (← conversion rest)
  | n + 1, '\\' :: rest => do
    let (e, rest) := if (← get).dialect = .shell then Escape.inFormat rest
      else Escape.ofProgram false rest
    writeEscape e
    pass n rest
  | n + 1, c :: rest => do
    let run := rest.takeWhile fun c => c ≠ '%' ∧ c ≠ '\\'
    write (c :: run)
    pass n (rest.drop run.length)

/-- Goes through the format until no argument is left, at most `n` times. -/
def repeatedly (format : List Char) : Nat → Print Unit
  | 0 => pure ()
  | n + 1 => do
    modify fun p => { p with consumed := false }
    pass format.length format
    let p ← get
    if p.consumed ∧ p.arguments ≠ [] then repeatedly format n

def run (d : Dialect) (format : String) (arguments : List String) : Report :=
  let start : Printing := ⟨d, arguments, false, [], false⟩
  match repeatedly format.toList (arguments.length + 1) start with
  | .ok _ p =>
    let late :=
      match d, p.arguments with
      | .program, a :: _ =>
        [Written.err ("warning: ignoring excess arguments, starting with " ++ Quoting.shown a)]
      | _, _ => []
    finish p late (if p.flawed then 1 else 0)
  | .error .done p => finish p [] (if p.flawed ∧ d = .shell then 1 else 0)
  | .error (.failed message code) p => finish p [.err message] code
where
  finish (p : Printing) (late : List Written) (code : UInt8) : Report :=
    ⟨p.written.reverse ++ late, code⟩

end Print

def spaced (arguments : List String) : String :=
  " ".intercalate arguments

namespace Echo

/-- The `echo` of the shell, which replaces escapes. -/
def shell (arguments : List String) : Report :=
  let (ends, arguments) :=
    match arguments with
    | "-n" :: rest => (false, rest)
    | arguments => (true, arguments)
  let cs := (spaced arguments).toList
  let (cs, stop) := Escape.replaceAll Escape.inArgument cs.length cs
  .ofText (String.ofList (if ends ∧ stop.isNone then cs ++ ['\n'] else cs))

def isOption (s : String) : Bool :=
  match s.toList with
  | '-' :: c :: rest => (c :: rest).all (· ∈ ['n', 'e', 'E'])
  | _ => false

/-- The program `echo`, which replaces escapes only if it is asked to. -/
def program (arguments : List String) : Report :=
  let options := (arguments.takeWhile isOption).flatMap String.toList
  let s := spaced (arguments.dropWhile isOption)
  let escapes := ((options.filter fun c => c = 'e' ∨ c = 'E').getLast?).any (· = 'e')
  let (cs, stop) :=
    if escapes then Escape.replaceAll Escape.ofEcho s.length s.toList else (s.toList, none)
  .ofText (String.ofList (if ¬options.contains 'n' ∧ stop.isNone then cs ++ ['\n'] else cs))

end Echo

end TaskQueue.Shell
