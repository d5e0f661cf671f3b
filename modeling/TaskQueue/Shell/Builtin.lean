import TaskQueue.Shell.Expansion
import TaskQueue.Shell.Programs

/-!
# Commands of the shell itself

These commands change or show the state of the shell.  Those that run scripts are not among them.
-/

namespace TaskQueue.Shell

namespace Builtin

def regularNames : List String :=
  ["alias", "bg", "cd", "chdir", "command", "echo", "false", "fg", "getopts", "hash", "jobs", "kill",
   "printf", "pwd", "read", "test", "[", "true", "type", "ulimit", "umask", "unalias", "wait"]

def isSpecial (name : String) : Bool :=
  name ∈ specialNames

def isKnown (name : String) : Bool :=
  isSpecial name || name ∈ regularNames

/-- The commands whose arguments may be assignments. -/
def takesAssignments (name : String) : Bool :=
  name ∈ ["alias", "export", "local", "readonly"]

def print (text : String) : Action Nat := do
  if text = "" ∨ (← Action.write 1 text) then return 0
  else
    let name := ((← get).command).getD ""
    Action.warn (name ++ ": I/O error")
    return 1

/-- Writes a report: complaints first. -/
def emit (r : Report) : Action Nat := do
  let outs := r.written.filterMap fun
    | .out text => some text
    | _ => none
  for w in r.written do
    match w with
    | .err message => Action.warn message
    | .out _ => pure ()
  return max r.code.toNat (← print (String.join outs))

/-- The number that an argument is: neither negative nor of more than 31 bits. -/
def number (s : String) : Action Nat := do
  match Condition.number? s with
  | some n =>
    if 0 ≤ n ∧ n < 2 ^ (31 : Nat) then return n.toNat
    else Action.fail ("Illegal number: " ++ s)
  | none => Action.fail ("Illegal number: " ++ s)

/-- Reads the letters of options; a colon after an allowed letter means that it has an argument. -/
def optionsIn (allowed : List Char) :
    Nat → List Char → List String → Action (List (Char × String) × List String)
  | 0, _, rest => return ([], rest)
  | n + 1, c :: cs, rest => do
    let after := (allowed.dropWhile (· ≠ c)).drop 1
    if c = ':' ∨ ¬allowed.contains c then Action.fail ("Illegal option -" ++ c.toString)
    if after.head? = some ':' then
      match cs, rest with
      | [], [] => Action.fail ("No arg for -" ++ c.toString ++ " option")
      | [], value :: rest =>
        let (more, rest) ← optionsIn allowed n [] rest
        return ((c, value) :: more, rest)
      | cs, rest =>
        let (more, rest) ← optionsIn allowed n [] rest
        return ((c, String.ofList cs) :: more, rest)
    else
      let (more, rest) ← optionsIn allowed n cs rest
      return ((c, "") :: more, rest)
  | n + 1, [], rest => do
    match rest with
    | [] => return ([], [])
    | a :: others =>
      match a.toList with
      | ['-', '-'] => return ([], others)
      | '-' :: c :: cs => optionsIn allowed n (c :: cs) others
      | _ => return ([], rest)

def options (allowed : String) (arguments : List String) :
    Action (List (Char × String) × List String) :=
  let size := arguments.foldl (fun n a => n + a.length + 2) 2
  optionsIn allowed.toList size [] arguments

/-- A text between quotation marks, as a shell reads it back: single ones stand in double marks, and
all else stands in single ones. -/
def quoted (s : String) : String :=
  String.ofList ('\'' :: go s.toList)
where
  go : List Char → List Char
    | [] => ['\'']
    | '\'' :: cs => '\'' :: '"' :: '\'' :: between cs
    | c :: cs => c :: go cs
  between : List Char → List Char
    | [] => ['"']
    | '\'' :: cs => '\'' :: between cs
    | c :: cs => '"' :: '\'' :: c :: go cs

/-- The variables that satisfy a condition, a line for each, by their names. -/
def showVariables (before : String) (p : Variable → Bool) : Action Nat := do
  let vs := ((← get).vars.filter p).mergeSort fun a b => a.name ≤ b.name
  print (String.join (vs.map fun v =>
    (if before = "" then "" else before ++ " ") ++ v.name ++
      v.value.elim "" (fun value => "=" ++ quoted value) ++ "\n"))

/-- The name and the value in an argument, if there is a value. -/
def splitAssignment (a : String) : String × Option String :=
  let name := a.toList.takeWhile (· ≠ '=')
  (String.ofList name,
    if name.length < a.length then some (String.ofList (a.toList.drop (name.length + 1))) else none)

def declare (command : String) (change : Variable → Variable) (has : Variable → Bool)
    (arguments : List String) : Action Nat := do
  let (os, names) ← options "p" arguments
  if ¬os.isEmpty ∨ names.isEmpty then showVariables command has
  else
    for a in names do
      let (name, value?) := splitAssignment a
      match value? with
      | some value => Action.assign name value
      | none => unless isName name do Action.fail (name ++ ": bad variable name")
      modify fun s =>
        s.putVariable (change ((s.lookup? name).getD ⟨name, none, false, false⟩))
    return 0

def localVariables (arguments : List String) : Action Nat := do
  if (← get).calls = 0 then Action.fail "not in a function"
  for a in arguments do
    let (name, value?) := splitAssignment a
    if isName name then
      Action.saveVariable name
      match value? with
      | some value => Action.assign name value
      | none => pure ()
    else if name = "-" then Action.saveOptions
    else Action.fail (name ++ ": bad variable name")
  return 0

def unset (arguments : List String) : Action Nat := do
  let (os, names) ← options "vf" arguments
  for name in names do
    if (os.getLast?.map Prod.fst) = some 'f' then
      modify fun s => { s with functions := s.functions.filter fun f => f.name ≠ name }
    else
      unless isName name do Action.fail (name ++ ": bad variable name")
      Action.unset name
  return 0

/-- The options that have names; those without a letter change nothing. -/
def optionNames : List (String × Option Char) :=
  [("errexit", some 'e'), ("noglob", some 'f'), ("ignoreeof", some 'I'), ("interactive", some 'i'),
   ("monitor", some 'm'), ("noexec", some 'n'), ("stdin", some 's'), ("xtrace", some 'x'),
   ("verbose", some 'v'), ("vi", some 'V'), ("emacs", some 'E'), ("noclobber", some 'C'),
   ("allexport", some 'a'), ("notify", some 'b'), ("nounset", some 'u'), ("privileged", some 'p'),
   ("nolog", none), ("debug", none)]

def setOption (c : Char) (value : Bool) : Action Unit := do
  if optionNames.any fun p => p.2 = some c then
    modify fun s =>
      { s with options := (if value then [c] else []) ++ s.options.filter (· ≠ c) }
  else Action.fail ("Illegal option -" ++ c.toString)

/-- Sets an option by its name; without one all options are shown. -/
def setNamedOption (name? : Option String) (value : Bool) : Action Unit := do
  match name? with
  | some name =>
    match optionNames.find? fun p => p.1 = name with
    | some (_, some c) => setOption c value
    | some (_, none) => return
    | none => Action.fail ("Illegal option -o " ++ name)
  | none =>
    let s ← get
    let isOn (c : Option Char) : Bool := c.any (s.has ·)
    let lines := optionNames.map fun (name, c) =>
      if value then
        String.ofList (name.toList ++ List.replicate (16 - name.length) ' ') ++
          (if isOn c then "on" else "off")
      else "set " ++ (if isOn c then "-" else "+") ++ "o " ++ name
    let head := if value then ["Current option settings"] else []
    let _ ← print (String.join ((head ++ lines).map (· ++ "\n")))

/-- Sets the options in letters, and gives the arguments that are left. -/
def setLetters (value : Bool) : List Char → List String → Action (List String)
  | [], rest => return rest
  | 'o' :: cs, rest => do
    setNamedOption rest.head? value
    setLetters value cs (rest.drop 1)
  | c :: cs, rest => do
    setOption c value
    setLetters value cs rest

/-- Sets options; what is left are the arguments of the shell, unless nothing is left. -/
def setAll : Nat → List String → Action Nat
  | 0, _ => return 0
  | n + 1, arguments => do
    let replace (rest : List String) : Action Nat := do
      modify fun s => { s with arguments := rest, optionOffset := none }
      return 0
    match arguments with
    | [] => return 0
    | a :: rest =>
      match a.toList with
      | ['-'] =>
        modify fun s => { s with options := s.options.filter fun c => c ≠ 'x' ∧ c ≠ 'v' }
        if rest.isEmpty then return 0 else replace rest
      | ['-', '-'] => replace rest
      | '-' :: cs => setAll n (← setLetters true cs rest)
      | '+' :: cs => setAll n (← setLetters false cs rest)
      | _ => replace arguments

/-- Reads a line with its escapes: the atoms, how many bytes it takes, and whether it has an end. -/
def lineAtoms (raw : Bool) : List Char → List Atom × Nat × Bool
  | [] => ([], 0, false)
  | '\n' :: _ => ([], 1, true)
  | '\x00' :: cs =>
    let (as, n, ends) := lineAtoms raw cs
    (as, n + 1, ends)
  | '\\' :: c :: cs =>
    if raw then
      let (as, n, ends) := lineAtoms raw (c :: cs)
      (.letter ⟨'\\', false⟩ :: as, n + 1, ends)
    else
      let (as, n, ends) := lineAtoms raw cs
      let first : List Atom :=
        if c = '\n' then [.finish, .begin false]
        else [.finish, .letter ⟨c, true⟩, .begin false]
      (first ++ as, n + 2, ends)
  | c :: cs =>
    let (as, n, ends) := lineAtoms raw cs
    (if c = '\\' ∧ ¬raw then as else .letter ⟨c, false⟩ :: as, n + 1, ends)

/-- Reads a line into variables, of which the last one takes what is left. -/
def read (arguments : List String) : Action Nat := do
  let (os, names) ← options "p:r" arguments
  if names.isEmpty then Action.fail "arg count"
  let s ← get
  let raw := os.any fun o => o.1 = 'r'
  let pending := (s.stream? 0).bind fun n => (s.outside.pending? n).map fun bs => (n, bs)
  let (as, count, ends) := lineAtoms raw ((pending.map fun p => (Bytes.letters p.2).toList).getD [])
  match pending with
  | some (n, _) => set { s with outside := s.outside.consume n count }
  | none => pure ()
  let fields := Fields.ofAtoms ⟨s.separators, some names.length⟩ (Atom.region as)
  let values := fields.map fun ls => String.ofList (Letter.chars ls)
  for (name, i) in names.zipIdx do
    Action.assign name (values[i]?.getD "")
  return if ends then 0 else 1

/-- Changes the directory; names that go back are taken literally. -/
def changeDirectory (arguments : List String) : Action Nat := do
  let (_, rest) ← options "LP" arguments
  let s ← get
  let (target, shows) :=
    match rest with
    | "-" :: _ => ((s.value? "OLDPWD").getD "", true)
    | target :: _ => (target, false)
    | [] => ((s.value? "HOME").getD "", false)
  let path := if target = "" then "." else target
  let starts (p : String) : Bool := p.toList.isPrefixOf path.toList
  let isFixed : Bool := starts "/" || path ∈ [".", ".."] || starts "./" || starts "../"
  let bases := if isFixed then [""] else ((s.value? "CDPATH").getD "").splitOn ":"
  let found : Option (Files.Place × Bool) := bases.findSome? fun base =>
    match s.outside.files.look s.directory
      (Bytes.ofLetters (if base = "" then path else Files.join base path)) with
    | .ok (place, .directory) => some (place, base ≠ "")
    | _ => none
  match found with
  | some (place, viaBase) =>
    let before := s.directory
    set { s with directory := place }
    Action.assign "OLDPWD" (pathOf before)
    Action.assign "PWD" (pathOf place)
    if shows || viaBase then print (pathOf place ++ "\n") else return 0
  | none => Action.fail ("can't cd to " ++ target)

/-- The path of a program, found by the variable of the shell. -/
def find (name : String) : Action (Except SpawnFlaw (String × String)) := do
  let s ← get
  if name = "" then return .error .denied
  else return Programs.search s.outside.files s.directory ((s.value? "PATH").getD "") name

/-- Tells what a command is, in a sentence or briefly, and whether it is something. -/
def describe (name : String) (briefly : Bool) : Action (String × Bool) := do
  let s ← get
  let line (said : String) : String × Bool :=
    (if briefly then name ++ "\n" else name ++ said ++ "\n", true)
  if name ∈ Token.keywords then return line " is a shell keyword"
  match s.aliases.lookup name with
  | some text =>
    if briefly then return ("alias " ++ name ++ "=" ++ quoted text ++ "\n", true)
    else return line (" is an alias for " ++ text)
  | none => pure ()
  if isSpecial name then return line " is a special shell builtin"
  if s.functions.any fun f => f.name = name then return line " is a shell function"
  if isKnown name then return line " is a shell builtin"
  match ← find name with
  | .ok (path, _) => return (if briefly then path ++ "\n" else name ++ " is " ++ path ++ "\n", true)
  | .error _ => return (if briefly then "" else name ++ ": not found\n", false)

def type (arguments : List String) : Action Nat := do
  let mut code : Nat := 0
  let mut text := ""
  for name in arguments do
    let (said, found) ← describe name false
    text := text ++ said
    unless found do code := 127
  return code ||| (← print text)

def hash (arguments : List String) : Action Nat := do
  let (_, names) ← options "rv" arguments
  let mut code : Nat := 0
  for name in names do
    let found ← find name
    unless isKnown name ∨ found.toOption.isSome do
      Action.warn (name ++ ": not found")
      code := 1
  return code

def nameAliases (arguments : List String) : Action Nat := do
  let line (p : String × String) : String := p.1 ++ "=" ++ quoted p.2 ++ "\n"
  if arguments.isEmpty then print (String.join ((← get).aliases.map line))
  else
    let mut code : Nat := 0
    for a in arguments do
      let s ← get
      match splitAssignment a with
      | (name, some text) =>
        if name = "" then
          let _ ← Action.write 2 ("alias: " ++ a ++ " not found\n")
          code := 1
        else
          set { s with aliases := (name, text) :: s.aliases.filter fun p => p.1 ≠ name }
      | (name, none) =>
        match s.aliases.lookup name with
        | some text => code := code ||| (← print (line (name, text)))
        | none =>
          let _ ← Action.write 2 ("alias: " ++ name ++ " not found\n")
          code := 1
    return code

def unalias (arguments : List String) : Action Nat := do
  let (os, names) ← options "a" arguments
  if ¬os.isEmpty then
    modify fun s => { s with aliases := [] }
    return 0
  else
    let mut code : Nat := 0
    for name in names do
      let s ← get
      if (s.aliases.lookup name).isSome then
        set { s with aliases := s.aliases.filter fun p => p.1 ≠ name }
      else
        let _ ← Action.write 2 ("unalias: " ++ name ++ " not found\n")
        code := 1
    return code

/-- The greatest number of a signal. -/
def maxSignal : Nat := 64

/-- The name by which the shell knows a signal; zero stands for the end of a shell.  Of the signals
for free use, the first half is counted from the first one and the other from the last one. -/
def trapName (n : Nat) : String :=
  let least := 34
  if n = 0 then "EXIT"
  else if n = 16 then "16"
  else if n < least then (signalName? n).getD (toString n)
  else if n = least then "RTMIN"
  else if n < 50 then s!"RTMIN+{n - least}"
  else if n < maxSignal then s!"RTMAX-{maxSignal - n}"
  else "RTMAX"

/-- The number of a signal that is given by its number or by its name; zero may stand for the end of
a shell. -/
def signal? (s : String) (least : Nat) : Option Nat :=
  if s ≠ "" ∧ s.toList.all Char.isDigit then
    let n := Decimal.value s.toList
    if n ≤ maxSignal then some n else none
  else
    let upper := s.toUpper
    ((List.range (maxSignal + 1)).drop least).find? fun n => trapName n = upper

def trap (arguments : List String) : Action Nat := do
  let (_, rest) ← options "" arguments
  match rest with
  | [] =>
    let ts := (← get).traps.mergeSort fun a b => a.1 ≤ b.1
    print (String.join (ts.map fun (n, action) =>
      "trap -- " ++ quoted action ++ " " ++ trapName n ++ "\n"))
  | first :: others =>
    let resets := others.isEmpty ∨ (first ≠ "" ∧ first.toList.all Char.isDigit)
    let action := if resets ∨ first = "-" then none else some first
    for name in if resets then rest else others do
      match signal? name 0 with
      | none =>
        let _ ← Action.write 2 ("trap: " ++ name ++ ": bad trap\n")
        return 1
      | some n =>
        modify fun s =>
          { s with traps :=
              (action.map fun a => (n, a)).toList ++ s.traps.filter fun p => p.1 ≠ n }
    return 0

def deliver (signal : Nat) : Action Unit := do
  let s ← get
  if signal = 0 then return
  if signal = 9 then throw (.killed 9)
  if s.passedOver.contains signal then return
  if (s.traps.lookup signal).isSome then set { s with caught := s.caught ++ [signal] }
  else unless harmlessSignals.contains signal do throw (.killed signal)

def killUsage : String :=
  "Usage: kill [-s sigspec | -signum | -sigspec] [pid | job]... or\nkill -l [exitstatus]"

/-- The job that a text stands for, by its number or as the last one. -/
def job (s : String) : Action Job := do
  let jobs := (← get).jobs
  let found : Option Job :=
    match s.toList with
    | ['%'] => jobs.head?
    | ['%', '%'] => jobs.head?
    | ['%', '+'] => jobs.head?
    | ['%', '-'] => jobs[1]?
    | '%' :: ds => if ds.all Char.isDigit then jobs.reverse[Decimal.value ds - 1]? else none
    | _ => none
  match found with
  | some j => return j
  | none => Action.fail ("No such job: " ++ s)

def changeJob (process : Nat) (f : Job → Job) : Action Unit :=
  modify fun s => { s with jobs := s.jobs.map fun j => if j.process = process then f j else j }

/-- Sends a signal to processes: to the shell itself, or to one in the background, which has not
ended unless it has been waited for. -/
def send (signal : Nat) (targets : List String) : Action Nat := do
  let mut code : Nat := 0
  for target in targets do
    if target.toList.head? = some '%' then
      let _ ← job target
    let n ← number (if target.toList.head? = some '-' then String.ofList (target.toList.drop 1)
      else target)
    let s ← get
    if n = s.process ∧ target.toList.head? ≠ some '-' then
      if s.isSubshell then
        set { s with outside := { s.outside with signals := s.outside.signals ++ [(n, signal)] } }
      else deliver signal
    else if s.jobs.any fun j => j.process = n ∧ ¬j.awaited then
      unless signal = 0 ∨ harmlessSignals.contains signal do
        changeJob n fun j => { j with status := 128 + signal, signal := some signal }
        modify fun s => { s with deferred := s.deferred.filter fun d => d.process ≠ n }
    else
      Action.warn "No such process\n"
      code := 1
  return code

def listSignals (arguments : List String) : Action Nat := do
  match arguments with
  | [] => print (String.join ((["0"] ++ (List.range maxSignal).map fun i => trapName (i + 1)).map (· ++ "\n")))
  | code :: _ =>
    let n ← number code
    let n := if 128 < n then n - 128 else n
    if 0 < n ∧ n ≤ maxSignal then print (trapName n ++ "\n")
    else Action.fail ("invalid signal number or exit status: " ++ code)

def kill (arguments : List String) : Action Nat := do
  let direct := (arguments.head?.bind fun a =>
    match a.toList with
    | '-' :: name => signal? (String.ofList name) 1
    | _ => none)
  match direct with
  | some signal =>
    if (arguments.drop 1).isEmpty then Action.fail killUsage
    send signal (arguments.drop 1)
  | none =>
    let (os, targets) ← options "ls:" arguments
    let mut signal := 15
    for (c, value) in os do
      if c = 's' then
        match signal? value 1 with
        | some n => signal := n
        | none => Action.fail ("invalid signal number or name: " ++ value)
    let lists := os.any fun o => o.1 = 'l'
    if ¬lists ∧ targets.isEmpty then Action.fail killUsage
    if lists then listSignals targets else send signal targets

/-- Waits for processes, which have all ended. -/
def wait (arguments : List String) : Action Nat := do
  let mut code : Nat := 0
  for a in arguments do
    let process ← if a.toList.head? = some '%' then do pure (← job a).process else number a
    match (← get).jobs.find? fun j => j.process = process with
    | some j =>
      unless j.awaited do Action.mourn j.signal
      changeJob process fun j => { j with awaited := true }
      code := j.status
    | none => code := 127
  if arguments.isEmpty then
    modify fun s => { s with jobs := s.jobs.map fun j => { j with awaited := true } }
  return code

/-- The letters of the permissions that are left to the owner, the group and the others. -/
def symbolicPermissions (withheld : Nat) : String :=
  let letters (digit : Nat) : String :=
    (if digit / 4 % 2 = 0 then "r" else "") ++ (if digit / 2 % 2 = 0 then "w" else "") ++
      (if digit % 2 = 0 then "x" else "")
  "u=" ++ letters (withheld / 64) ++ ",g=" ++ letters (withheld / 8 % 8) ++ ",o=" ++
    letters (withheld % 8)

def withhold (arguments : List String) : Action Nat := do
  let (os, rest) ← options "S" arguments
  let now := (← get).withheld
  match rest with
  | [] =>
    let digits := [now / 512 % 8, now / 64 % 8, now / 8 % 8, now % 8].map Nat.digitChar
    print ((if os.isEmpty then String.ofList digits else symbolicPermissions now) ++ "\n")
  | mode :: _ =>
    let ds := mode.toList
    if ds.head?.any Char.isDigit then
      unless ds.all fun c => '0' ≤ c ∧ c ≤ '7' do Action.fail ("Illegal number: " ++ mode)
      let n := ds.foldl (fun n c => 8 * n + (c.toNat - '0'.toNat)) 0
      modify fun s => { s with withheld := n % 512 }
      return 0
    else Action.fail ("Illegal mode: " ++ mode)

/-- The next option of a script, by the options that it knows. -/
def getopts (arguments : List String) : Action Nat := do
  let (_, rest) ← options "" arguments
  match rest with
  | known :: target :: given =>
    let s ← get
    let words := if given.isEmpty then s.arguments else given
    let index := ((s.value? "OPTIND").bind String.toNat?).getD 1
    let (index, offset) := if words.length + 1 < index ∨ index = 0 then (1, none)
      else (index, s.optionOffset)
    let silent : Bool := known.toList.head? = some ':'
    let known := if silent then known.toList.drop 1 else known.toList
    let current : List Char :=
      match offset with
      | some k => if 2 ≤ index then ((words[index - 2]?).getD "").toList.drop k else []
      | none => []
    let finish (c : Char) (index : Nat) (offset : Option Nat) (code : Nat) : Action Nat := do
      Action.assign "OPTIND" (toString index)
      Action.assign target c.toString
      modify fun s => { s with optionOffset := offset }
      return code
    let entered : Option (List Char × Nat) :=
      if current ≠ [] then some (current, index)
      else
        match ((words[index - 1]?).getD "").toList with
        | ['-', '-'] => none
        | '-' :: c :: cs => some (c :: cs, index + 1)
        | _ => none
    match entered with
    | none =>
      let skips := current = [] ∧ words[index - 1]? = some "--"
      finish '?' (if skips then index + 1 else index) none 1
    | some ([], index) => finish '?' index none 1
    | some (c :: cs, index) =>
      let offset : Option Nat :=
        if cs.isEmpty then some (((words[index - 2]?).getD "").length)
        else some (((words[index - 2]?).getD "").length - cs.length)
      if c = ':' ∨ ¬known.contains c then
        if silent then Action.assign "OPTARG" c.toString
        else
          let _ ← Action.write 2 ("Illegal option -" ++ c.toString ++ "\n")
          Action.unset "OPTARG"
        finish '?' index offset 0
      else if ((known.dropWhile (· ≠ c)).drop 1).head? = some ':' then
        match cs, words[index - 1]? with
        | [], none =>
          if silent then
            Action.assign "OPTARG" c.toString
            finish ':' index none 0
          else
            let _ ← Action.write 2 ("No arg for -" ++ c.toString ++ " option\n")
            Action.unset "OPTARG"
            finish '?' index none 0
        | [], some value =>
          Action.assign "OPTARG" value
          finish c (index + 1) none 0
        | cs, _ =>
          Action.assign "OPTARG" (String.ofList cs)
          finish c index none 0
      else
        Action.assign "OPTARG" ""
        finish c index offset 0
  | _ => Action.fail "Usage: getopts optstring var [arg...]"

/-- Leaves loops, or goes on with the next round of one. -/
def leaveLoops (resumes : Bool) (arguments : List String) : Action Nat := do
  let n ← match arguments with
    | a :: _ => do
      let n ← number a
      if n = 0 then Action.fail ("Illegal number: " ++ a)
      pure n
    | [] => pure 1
  modify fun s =>
    let n := min n s.loops
    if n = 0 then s else { s with skip := some (if resumes then .resume n else .leave n) }
  return 0

def run (name : String) (arguments : List String) : Action Nat := do
  match name with
  | ":" => return 0
  | "true" => return 0
  | "false" => return 1
  | "echo" => emit (Echo.shell arguments)
  | "printf" =>
    match (← options "" arguments).2 with
    | [] => Action.fail "usage: printf format [arg ...]"
    | format :: arguments => emit (Print.run .shell format arguments)
  | "break" => leaveLoops false arguments
  | "continue" => leaveLoops true arguments
  | "return" =>
    let status ← match arguments with
      | a :: _ => number a
      | [] => do pure (← get).status
    modify fun s => { s with skip := some .function }
    return status
  | "exit" =>
    match arguments with
    | a :: _ => Action.setStatus (← number a)
    | [] => modify fun s => { s with status := s.endStatus.getD s.status }
    throw .exit
  | "shift" =>
    let n ← match arguments with
      | a :: _ => number a
      | [] => pure 1
    if (← get).arguments.length < n then Action.fail "can't shift that many"
    modify fun s => { s with arguments := s.arguments.drop n, optionOffset := none }
    return 0
  | "set" =>
    if arguments.isEmpty then showVariables "" (·.value.isSome)
    else setAll (arguments.foldl (fun n a => n + a.length + 1) 1) arguments
  | "unset" => unset arguments
  | "export" => declare "export" (fun v => { v with exported := true }) (·.exported) arguments
  | "readonly" => declare "readonly" (fun v => { v with readOnly := true }) (·.readOnly) arguments
  | "local" => localVariables arguments
  | "read" => read arguments
  | "cd" => changeDirectory arguments
  | "chdir" => changeDirectory arguments
  | "pwd" => do
    let _ ← options "LP" arguments
    print (pathOf (← get).directory ++ "\n")
  | "type" => type arguments
  | "hash" => hash arguments
  | "alias" => nameAliases arguments
  | "unalias" => unalias arguments
  | "trap" => trap arguments
  | "kill" => kill arguments
  | "getopts" => getopts arguments
  | "times" => print "0m0.000000s 0m0.000000s\n0m0.000000s 0m0.000000s\n"
  | "umask" => withhold arguments
  | "ulimit" => if arguments.length < 2 then print "unlimited\n" else return 0
  | "jobs" => return 0
  | "fg" => Action.fail "No current job"
  | "bg" => Action.fail "No current job"
  | name =>
    match Programs.condition (← get) name arguments with
    | .ok b => return if b then 0 else 1
    | .error flaw => Action.fail flaw.message

end Builtin

end TaskQueue.Shell
