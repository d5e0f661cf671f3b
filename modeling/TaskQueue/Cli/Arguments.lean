import TaskQueue.Cli.Command

/-!
# The arguments of the program

A command line has options, the name of a command, and the options and values of this command.
Some options may stand on either side of the name.  A command line that does not fit is refused
altogether.
-/

namespace TaskQueue.Cli

inductive Action where
  | command (c : Command)
  | follow (id : String) (since : Nat)
  /-- Works off the queue, once or again and again. -/
  | run (once : Bool)
  deriving DecidableEq, Repr

structure Orders where
  databaseUrl : Option String
  config : Option String
  verbose : Bool
  action : Action
  deriving DecidableEq, Repr

inductive NoOrders where
  | version
  | help
  | refused
  deriving DecidableEq, Repr, Inhabited

/-- An option; one that takes a value says which ones it accepts. -/
structure OptionSpec where
  name : String
  letter : Option Char
  accepts : Option (String → Bool)

namespace OptionSpec

def flag (name : String) (letter : Option Char) : OptionSpec :=
  ⟨name, letter, none⟩

def valued (name : String) : OptionSpec :=
  ⟨name, none, some fun _ => true⟩

def number (name : String) : OptionSpec :=
  ⟨name, none, some fun v => (Decimal.unsigned? (2 ^ (64 : Nat)) v.toList).isSome⟩

/-- The options that may stand on either side of the command. -/
def anywhere : List OptionSpec :=
  [valued "database-url", ⟨"config", none, some (· ≠ "")⟩, flag "verbose" (some 'v')]

end OptionSpec

structure Arguments where
  options : List (String × String)
  values : List String
  deriving DecidableEq, Repr, Inhabited

namespace Arguments

def none : Arguments :=
  ⟨[], []⟩

def get? (a : Arguments) (name : String) : Option String :=
  (a.options.find? fun p => p.1 = name).map Prod.snd

def has (a : Arguments) (name : String) : Bool :=
  (a.get? name).isSome

/-- The number that an option gives, or a default. -/
def number (a : Arguments) (name : String) (default : Nat) : Nat :=
  ((a.get? name).bind fun v => Decimal.unsigned? (2 ^ (64 : Nat)) v.toList).getD default

/-- Adds an option, which may come only once and has to have an acceptable value. -/
def add (a : Arguments) (spec : OptionSpec) (value : String) : Except NoOrders Arguments :=
  if a.has spec.name ∨ ¬spec.accepts.all (· value) then .error .refused
  else .ok { a with options := (spec.name, value) :: a.options }

def addLetters (specs : List OptionSpec) (outermost : Bool) (a : Arguments) :
    List Char → Except NoOrders Arguments
  | [] => .ok a
  | c :: rest =>
    if c = 'h' then .error .help
    else if c = 'V' ∧ outermost then .error .version
    else
      match specs.find? fun spec => spec.letter = some c with
      | .none => .error .refused
      | some spec => do addLetters specs outermost (← a.add spec "") rest

def looksLikeOption (arg : String) : Bool :=
  arg.toList.head? = some '-' ∧ arg ≠ "-"

/-- The command line of one side: its options and how many values it takes.  On the outer side
reading stops at the first value, the name of the command. -/
structure Side where
  specs : List OptionSpec
  outermost : Bool
  capacity : Nat

def addRest (side : Side) (a : Arguments) (rest : List String) : Except NoOrders Arguments :=
  if side.capacity < a.values.length + rest.length then .error .refused
  else .ok { a with values := a.values ++ rest }

def read (side : Side) (a : Arguments) : List String → Except NoOrders (Arguments × List String)
  | [] => .ok (a, [])
  | arg :: rest =>
    match arg.toList with
    | ['-', '-'] => do return (← a.addRest side rest, [])
    | '-' :: '-' :: long =>
      let name := String.ofList (long.takeWhile (· ≠ '='))
      let value := long.dropWhile (· ≠ '=')
      if name = "help" ∧ value = [] then .error .help
      else if name = "version" ∧ value = [] ∧ side.outermost then .error .version
      else
        match side.specs.find? fun spec => spec.name = name with
        | .none => .error .refused
        | some spec =>
          match spec.accepts, value, rest with
          | .none, [], rest => do read side (← a.add spec "") rest
          | .none, _ :: _, _ => .error .refused
          | some _, _ :: value, rest => do read side (← a.add spec (String.ofList value)) rest
          | some _, [], value :: rest =>
            if looksLikeOption value then .error .refused
            else do read side (← a.add spec value) rest
          | some _, [], [] => .error .refused
    | '-' :: c :: letters => do
      read side (← a.addLetters side.specs side.outermost (c :: letters)) rest
    | _ =>
      if side.outermost then .ok (a, arg :: rest)
      else if a.values.length < side.capacity then
        read side { a with values := a.values ++ [arg] } rest
      else .error .refused

end Arguments

/-- A command as it is called: its own options, how many values it needs, and what it does. -/
structure Form where
  name : String
  specs : List OptionSpec
  values : Nat
  action : Arguments → List String → Option Action

namespace Form

def onTask (name : String) (f : String → Command) : Form where
  name := name
  specs := []
  values := 1
  action
    | _, [id] => some (.command (f id))
    | _, _ => none

def enqueue : Form where
  name := "enqueue"
  specs := [.valued "payload", .valued "group", .valued "window", .valued "source"]
  values := 1
  action
    | a, [eventType] =>
      if a.has "source" ∧ ¬a.has "window" then none
      else
        some (.command (.enqueue eventType ((a.get? "payload").getD "{}") (a.get? "group")
          (a.get? "window") (a.get? "source")))
    | _, _ => none

/-- How many tasks a list shows unless another number is given. -/
def listLimit : Nat := 50

def list : Form where
  name := "list"
  specs := [.valued "status", .flag "archived" none, .flag "all" none, .number "limit"]
  values := 0
  action := fun a _ =>
    if a.has "archived" ∧ a.has "all" then none
    else
      some (.command (.list (a.get? "status") (a.has "archived") (a.has "all")
        (a.number "limit" listLimit)))

def archive : Form where
  name := "archive"
  specs := [.flag "unarchive" none]
  values := 1
  action
    | a, [id] => some (.command (.archive id (!a.has "unarchive")))
    | _, _ => none

def logs : Form where
  name := "logs"
  specs := [.number "since", .flag "follow" (some 'f')]
  values := 1
  action
    | a, [id] =>
      let since := a.number "since" 0
      some (if a.has "follow" then .follow id since else .command (.logs id since))
    | _, _ => none

def run : Form where
  name := "run"
  specs := [.flag "once" none]
  values := 0
  action := fun a _ => some (.run (a.has "once"))

def all : List Form :=
  [enqueue, onTask "show" .show, list, onTask "pause" .pause, onTask "retry" .retry, archive,
   onTask "delete" .delete, logs, run]

end Form

namespace Orders

/-- Reads the arguments of a command, after those before its name. -/
def ofForm (outer : Arguments) (form : Form) (rest : List String) : Except NoOrders Orders := do
  let side : Arguments.Side := ⟨OptionSpec.anywhere ++ form.specs, false, form.values⟩
  let (inner, _) ← Arguments.none.read side rest
  let option := fun name => (inner.get? name).or (outer.get? name)
  match form.action inner inner.values with
  | none => throw .refused
  | some action =>
    return ⟨option "database-url", option "config", (option "verbose").isSome, action⟩

/-- The command `help`, which may name a command. -/
def help (rest : List String) : NoOrders :=
  match rest with
  | [] => .help
  | [name] => if name = "help" ∨ Form.all.any (·.name = name) then .help else .refused
  | _ => .refused

def ofArguments (args : List String) : Except NoOrders Orders := do
  let (outer, rest) ← Arguments.none.read ⟨OptionSpec.anywhere, true, 0⟩ args
  match rest with
  | [] => throw .refused
  | "help" :: rest => throw (help rest)
  | name :: rest =>
    match Form.all.find? (·.name = name) with
    | none => throw .refused
    | some form => ofForm outer form rest

end Orders

end TaskQueue.Cli
